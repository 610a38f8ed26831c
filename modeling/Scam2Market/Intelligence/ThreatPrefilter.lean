import Scam2Market.Intelligence.CanonicalUrls

/-!
# Does the query of a match drop an exact match?

`_match_indicator` looks at the posts whose text has the value of an indicator, or whose URLs have it; then
it asks whether the post mentions the indicator, in normal form.

* `containsLike_of_stands`: what stands in a text is found by `ILIKE`.
* `normalizeIndicator_token`: what a token is read as.
* `prefilter_complete_iff`: nothing is dropped exactly when the URLs of a post, the hosts of those that are
  listed with it, and its IPv6 addresses stand in the text in their normal form.
-/

namespace Scam2Market
namespace Intelligence

variable {library : StandardLibrary} {post : SocialPostModel} {text value : String}

/-! ## Patterns -/

/-- A text matches itself as a pattern, unless it has a backslash. -/
theorem like_append {pattern rest : List Char} (hrest : like pattern rest = true) :
    ∀ value : List Char, '\\' ∉ value → like (value ++ pattern) (value ++ rest) = true
  | [], _ => hrest
  | c :: value, hescape => by
    obtain ⟨hc, hvalue⟩ := not_or.mp (mt List.mem_cons.mpr hescape)
    have ih := like_append hrest value hvalue
    rw [List.cons_append, List.cons_append]
    by_cases hany : c = '%'
    · subst hany
      rw [like, List.any_eq_true]
      refine ⟨value ++ rest, ?_, ih⟩
      rw [List.mem_tails]
      exact List.suffix_cons '%' _
    · by_cases hone : c = '_'
      · subst hone
        rw [like]
        exact ih
      · have hstep : like (c :: (value ++ pattern)) (c :: (value ++ rest)) =
            like (value ++ pattern) (value ++ rest) := by
          rw [like]
          · simp
          · exact hany
          · exact hone
          · rintro d rest' rfl
            exact absurd rfl hc
        rw [hstep]
        exact ih

/-- What stands in a text is found in it. -/
theorem containsLike_of_stands {lowerChar : Char → Char} (hany : lowerChar '%' = '%')
    (hescape : '\\' ∉ value.toList.map lowerChar)
    (hstands : value.toList.map lowerChar <:+: text.toList.map lowerChar) :
    containsLike lowerChar value text = true := by
  obtain ⟨front, rest, htext⟩ := hstands
  have hend : like ['%'] rest = true := by
    rw [like, List.any_eq_true]
    exact ⟨[], by simp, rfl⟩
  have hvalue := like_append hend (value.toList.map lowerChar) hescape
  rw [containsLike, ← htext, List.cons_append, List.map_cons, hany, List.map_append, List.map_singleton, hany, like,
    List.any_eq_true]
  refine ⟨value.toList.map lowerChar ++ rest, ?_, hvalue⟩
  rw [List.mem_tails, List.append_assoc]
  exact List.suffix_append front _

namespace StandardLibrary

/-- A part of a text that is ASCII is found in it, in lower case or not. -/
theorem contains_of_ascii {part : List Char} (hascii : ∀ c ∈ part, isAscii c = true)
    (hescape : '\\' ∉ part) (hstands : part <:+: text.toList)
    (hvalue : value.toList = part ∨ value.toList = part.map Char.toLower) :
    containsLike library.matchTools.lowerChar value text = true := by
  have hlower {part : List Char} (hpart : ∀ c ∈ part, isAscii c = true) :
      part.map library.matchTools.lowerChar = part.map Char.toLower :=
    List.map_congr_left fun c hc => if_pos (hpart c hc)
  have hmap : value.toList.map library.matchTools.lowerChar =
      part.map library.matchTools.lowerChar := by
    rcases hvalue with hvalue | hvalue
    · rw [hvalue]
    · rw [hvalue, hlower (isAscii_map_toLower hascii), map_toLower_toLower hascii, hlower hascii]
  refine containsLike_of_stands rfl ?_ ?_
  · rw [hmap, hlower hascii]
    intro hmem
    obtain ⟨c, hc, hlowered⟩ := List.mem_map.mp hmem
    have hself : c.toLower = '\\' → c = '\\' :=
      of_isAscii (P := fun c => c.toLower = '\\' → c = '\\') (by decide) (hascii c hc)
    exact hescape (hself hlowered ▸ hc)
  · rw [hmap]
    exact hstands.map _

end StandardLibrary

/-! ## Tokens -/

/-- What is stripped off a token. -/
def isTrimmed (c : Char) : Bool :=
  c ∈ ['.', ',', ';', '(', ')', '[', ']']

/-- The tokens of a text, stripped. -/
def cleanTokens (text : String) : List String :=
  (((text.toList.splitOnP fun c => !isCandidateChar c).filter (· ≠ [])).map String.ofList).map
    (stripWhere isTrimmed)

def StartsHttp (token : String) : Prop :=
  "http://".toList <+: token.toList ∨ "https://".toList <+: token.toList

instance (token : String) : Decidable (StartsHttp token) :=
  inferInstanceAs (Decidable (_ ∨ _))

/-- The names of the types that every token is read as. -/
def scannedKinds : List (String × IndicatorType) :=
  [("IPV4", .ipv4), ("IPV6", .ipv6), ("MD5", .md5), ("SHA1", .sha1), ("SHA256", .sha256)]

/-- A token stands in the text, and has the characters of a token. -/
theorem cleanToken_spec {token : String} (h : token ∈ cleanTokens text) :
    token.toList <:+: text.toList ∧ ∀ c ∈ token.toList, isCandidateChar c = true := by
  rw [cleanTokens, List.map_map] at h
  obtain ⟨piece, hpiece, rfl⟩ := List.mem_map.mp h
  obtain ⟨hstands, hchars⟩ := Library.mem_splitOnP (List.mem_of_mem_filter hpiece)
  have htrim : (stripWhere isTrimmed (String.ofList piece)).toList <:+: piece := by
    rw [stripWhere, String.toList_ofList, String.toList_ofList]
    exact Library.trim_within isTrimmed piece
  exact ⟨htrim.trans hstands, fun c hc => hchars c (htrim.subset hc)⟩

variable {tools : TextTools} {item : NormalizedIndicator} {token : String}

theorem mem_urlCandidates {raw : String} :
    item ∈ urlCandidates tools raw ↔ ∃ url, urlOf tools raw = some url ∧
      (item = { type := .url, value := url } ∨
        ∃ host, (tools.urlsplit url).bind UrlParts.hostname = some host ∧ host ≠ "" ∧
          item = { type := .domain, value := host }) := by
  rw [urlCandidates]
  cases hurl : urlOf tools raw with
  | none => simp
  | some url =>
    simp only [List.mem_cons, List.mem_map, List.mem_filter, Option.mem_toList, decide_eq_true_eq,
      Option.some.injEq, exists_eq_left', and_assoc, eq_comm (a := item)]

theorem mem_tokenCandidates :
    item ∈ tokenCandidates tools token ↔
      (StartsHttp (stripWhere isTrimmed token) ∧
        item ∈ urlCandidates tools (stripWhere isTrimmed token)) ∨
      (¬ StartsHttp (stripWhere isTrimmed token) ∧ '.' ∈ (stripWhere isTrimmed token).toList ∧
        ∃ domain, domainOf tools (stripWhere isTrimmed token) = some domain ∧
          item = { type := .domain, value := domain }) ∨
      ∃ kind ∈ scannedKinds.map Prod.fst,
        normalizeIndicator tools kind (stripWhere isTrimmed token) = some item := by
  have heq : tokenCandidates tools token =
      (if StartsHttp (stripWhere isTrimmed token) then urlCandidates tools (stripWhere isTrimmed token)
        else if '.' ∈ (stripWhere isTrimmed token).toList then
          (domainOf tools (stripWhere isTrimmed token)).toList.map fun domain =>
            { type := .domain, value := domain }
        else []) ++
      (scannedKinds.map Prod.fst).filterMap fun kind =>
        normalizeIndicator tools kind (stripWhere isTrimmed token) := rfl
  rw [heq, List.mem_append, List.mem_filterMap, ← or_assoc]
  refine or_congr_left ?_
  split_ifs with hhttp hdot
  · simp [hhttp]
  · simp only [hhttp, hdot, false_and, not_false_eq_true, true_and, false_or, List.mem_map,
      Option.mem_toList, eq_comm (a := item)]
  · simp [hhttp, hdot]

/-- What a post mentions: what its URLs are, and what the tokens of its text are. -/
theorem mem_matchCandidates {urls : List String} :
    item ∈ matchCandidates tools text urls ↔
      (∃ raw ∈ urls, item ∈ urlCandidates tools raw) ∨
      ∃ token ∈ cleanTokens text,
        (StartsHttp token ∧ item ∈ urlCandidates tools token) ∨
        (¬ StartsHttp token ∧ '.' ∈ token.toList ∧
          ∃ domain, domainOf tools token = some domain ∧
            item = { type := .domain, value := domain }) ∨
        ∃ kind ∈ scannedKinds.map Prod.fst, normalizeIndicator tools kind token = some item := by
  rw [matchCandidates, List.mem_append, List.mem_flatMap, List.mem_flatMap, cleanTokens]
  simp only [List.mem_map (f := stripWhere isTrimmed), exists_exists_and_eq_and, mem_tokenCandidates]

namespace StandardLibrary

theorem not_isSpace_of_isCandidateChar {c : Char} (h : isCandidateChar c = true) : isSpace c = false := by
  have hprinted := printed_of_isCandidateChar h
  have hascii : c.toNat < 128 := of_decide_eq_true (isAscii_of_isCandidateChar h)
  simp only [isSpace, Bool.or_eq_false_iff, Bool.and_eq_false_iff, decide_eq_false_iff_not]
  omega

/-- What a token is read as, when it is read as an address or a hash. -/
theorem normalizeIndicator_token (htoken : ∀ c ∈ token.toList, isCandidateChar c = true)
    {name : String} {kind : IndicatorType} (hkind : (name, kind) ∈ scannedKinds) :
    normalizeIndicator library.textTools name token =
      (valueOf library.textTools kind token).map fun value => { type := kind, value := value } := by
  have hstrip : stripWhere isSpace token = token := by
    have htrim : Library.trim isSpace token.toList = token.toList :=
      Library.trim_eq_self
        (fun c hc => not_isSpace_of_isCandidateChar (htoken c (List.mem_of_mem_head? hc)))
        (fun c hc => not_isSpace_of_isCandidateChar (htoken c (List.mem_of_getLast? hc)))
    rw [← String.ofList_toList (s := token)]
    conv_rhs => rw [← htrim]
    rw [String.ofList_toList]
    rfl
  have hname : typeOf (library.textTools.lower (stripWhere isSpace name)) = some kind := by
    simp only [scannedKinds, List.mem_cons, Prod.mk.injEq, List.not_mem_nil, or_false] at hkind
    rcases hkind with ⟨rfl, rfl⟩ | ⟨rfl, rfl⟩ | ⟨rfl, rfl⟩ | ⟨rfl, rfl⟩ | ⟨rfl, rfl⟩ <;> rfl
  rw [normalizeIndicator, hname, hstrip, Option.map_eq_bind]
  rfl

/-! ## The law -/

/-- The condition of the query holds for every indicator that the post mentions. -/
def PrefilterComplete (library : StandardLibrary) (post : SocialPostModel) : Prop :=
  ∀ kind value, { type := kind, value := value } ∈ candidatesOfPost library.matchTools post →
    isCandidatePost library.matchTools kind value post = true

/-- The text of the post has the value, whatever the case of its letters. -/
def StandsIn (library : StandardLibrary) (value : String) (post : SocialPostModel) : Prop :=
  containsLike library.matchTools.lowerChar value post.text = true

/-- The URLs of a post, and its tokens that begin like one. -/
def writtenUrls (post : SocialPostModel) : List String :=
  post.urls ++ (cleanTokens post.text).filter StartsHttp

/-- The URLs of a post, the hosts of those that are listed with it, and its IPv6 addresses stand in the text
in their normal form; a URL may also be listed in it. -/
structure SpelledOut (library : StandardLibrary) (post : SocialPostModel) : Prop where
  urls : ∀ raw ∈ writtenUrls post, ∀ url, urlOf library.textTools raw = some url →
    url ∈ post.urls ∨ StandsIn library url post
  hosts : ∀ raw ∈ post.urls, ∀ url host, urlOf library.textTools raw = some url →
    (library.urlsplit url).bind UrlParts.hostname = some host → StandsIn library host post
  addresses : ∀ token ∈ cleanTokens post.text, ∀ address,
    library.ipAddress token = some (6, address) → StandsIn library address post

/-- A domain, an IPv4 address or a hash that is written in the text stands in it. -/
theorem standsIn_of_token {part : List Char} (htoken : token ∈ cleanTokens post.text)
    (hpart : part <:+: token.toList) (hvalue : value.toList = part ∨ value.toList = part.map Char.toLower) :
    StandsIn library value post := by
  obtain ⟨hstands, hchars⟩ := cleanToken_spec htoken
  refine contains_of_ascii (fun c hc => isAscii_of_isCandidateChar (hchars c (hpart.subset hc)))
    (fun hmem => ?_) (hpart.trans hstands) hvalue
  exact absurd (hchars _ (hpart.subset hmem)) (by decide)

theorem standsIn_domain {domain : String} (htoken : token ∈ cleanTokens post.text)
    (h : domainOf library.textTools token = some domain) : StandsIn library domain post := by
  obtain ⟨-, hchars⟩ := cleanToken_spec htoken
  exact standsIn_of_token htoken (List.rdropWhile_prefix _ _).isInfix
    (Or.inr (toList_domainOf_ascii (fun c hc => isAscii_of_isCandidateChar (hchars c hc)) h))

/-- The host of a URL that is written in the text stands in it. -/
theorem standsIn_host {url host : String} (htoken : token ∈ cleanTokens post.text)
    (hurl : urlOf library.textTools token = some url)
    (hhost : (library.urlsplit url).bind UrlParts.hostname = some host) :
    StandsIn library host post := by
  obtain ⟨_, hchars⟩ := cleanToken_spec htoken
  obtain ⟨found, hfound, -, -, hstands⟩ := host_of_urlOf hurl
  obtain rfl := Option.some.inj (hfound.symm.trans hhost)
  obtain ⟨part, hpart, hvalue⟩ := List.infix_map_iff.mp (hstands hchars)
  exact standsIn_of_token htoken hpart (Or.inr hvalue)

theorem addressOf_eq_some {version : ℕ} (h : addressOf library.textTools version token = some value) :
    library.ipAddress token = some (version, value) := by
  rw [addressOf] at h
  cases hfound : library.textTools.ipAddress token with
  | none =>
    rw [hfound] at h
    exact nomatch h
  | some found =>
    obtain ⟨number, compressed⟩ := found
    rw [hfound] at h
    dsimp only at h
    split_ifs at h with hversion
    rw [← Option.some.inj h, ← hversion]
    exact hfound

theorem addressOf_of_ipAddress {version : ℕ} (h : library.ipAddress token = some (version, value)) :
    addressOf library.textTools version token = some value := by
  have hfound : library.textTools.ipAddress token = some (version, value) := h
  rw [addressOf, hfound]
  exact if_pos rfl

/-- An IPv4 address is its own normal form. -/
theorem ipAddress_four (h : library.ipAddress token = some (4, value)) : token = value := by
  rw [ipAddress] at h
  split_ifs at h with hfour
  · exact (Prod.mk.inj (Option.some.inj h)).2
  · obtain ⟨compressed, -, heq⟩ := Option.map_eq_some_iff.mp h
    exact absurd (Prod.mk.inj heq).1 (by decide)

theorem toList_hashOf_ascii {length : ℕ} (htoken : ∀ c ∈ token.toList, isAscii c = true)
    (h : hashOf library.textTools length token = some value) :
    value.toList = token.toList.map Char.toLower := by
  rw [hashOf] at h
  split_ifs at h with hhash
  rw [← Option.some.inj h]
  show (library.lowerText token).toList = _
  rw [lowerText_ascii htoken, String.toList_ofList]

/-- What a token is read as stands in the text, unless it is an IPv6 address. -/
theorem standsIn_scanned {name : String} (htoken : token ∈ cleanTokens post.text)
    (hname : name ∈ scannedKinds.map Prod.fst)
    (h : normalizeIndicator library.textTools name token = some item) :
    item.type ≠ .url ∧ (StandsIn library item.value post ∨
      item.type = .ipv6 ∧ library.ipAddress token = some (6, item.value)) := by
  obtain ⟨_, hchars⟩ := cleanToken_spec htoken
  obtain ⟨⟨name, kind⟩, hkind, rfl⟩ := List.mem_map.mp hname
  rw [normalizeIndicator_token hchars hkind] at h
  obtain ⟨value, hvalue, rfl⟩ := Option.map_eq_some_iff.mp h
  have hhash {length : ℕ} (h : hashOf library.textTools length token = some value) :
      StandsIn library value post := by
    refine standsIn_of_token htoken List.infix_rfl (Or.inr ?_)
    rw [toList_hashOf_ascii (fun c hc => isAscii_of_isCandidateChar (hchars c hc)) h]
  simp only [scannedKinds, List.mem_cons, Prod.mk.injEq, List.not_mem_nil, or_false] at hkind
  rcases hkind with ⟨-, rfl⟩ | ⟨-, rfl⟩ | ⟨-, rfl⟩ | ⟨-, rfl⟩ | ⟨-, rfl⟩
  · refine ⟨nofun, Or.inl (standsIn_of_token htoken List.infix_rfl (Or.inl ?_))⟩
    rw [ipAddress_four (addressOf_eq_some hvalue)]
  · exact ⟨nofun, Or.inr ⟨rfl, addressOf_eq_some hvalue⟩⟩
  · exact ⟨nofun, Or.inl (hhash hvalue)⟩
  · exact ⟨nofun, Or.inl (hhash hvalue)⟩
  · exact ⟨nofun, Or.inl (hhash hvalue)⟩

theorem SpelledOut.urlCandidates {raw : String} (h : SpelledOut library post)
    (hraw : raw ∈ writtenUrls post)
    (hhosts : ∀ url host, urlOf library.textTools raw = some url →
      (library.urlsplit url).bind UrlParts.hostname = some host → StandsIn library host post)
    (hitem : item ∈ urlCandidates library.textTools raw) :
    isCandidatePost library.matchTools item.type item.value post = true := by
  obtain ⟨url, hurl, rfl | ⟨host, hhost, -, rfl⟩⟩ := mem_urlCandidates.mp hitem
  · rw [isCandidatePost, Bool.or_eq_true, decide_eq_true_eq]
    exact h.urls raw hraw url hurl
  · exact hhosts url host hurl hhost

/-- **The query drops no exact match** exactly when the URLs of the post, the hosts of those that are listed
with it, and its IPv6 addresses stand in the text in their normal form.  Domains, hosts, IPv4 addresses and
hashes that are written in the text are never dropped. -/
theorem prefilter_complete_iff (library : StandardLibrary) (post : SocialPostModel) :
    PrefilterComplete library post ↔ SpelledOut library post := by
  constructor
  · intro h
    have hwritten : ∀ raw ∈ writtenUrls post, ∀ item ∈ urlCandidates library.textTools raw,
        item ∈ candidatesOfPost library.matchTools post := by
      intro raw hraw item hitem
      refine mem_matchCandidates.mpr ?_
      rcases List.mem_append.mp hraw with hraw | hraw
      · exact Or.inl ⟨raw, hraw, hitem⟩
      · obtain ⟨htoken, hhttp⟩ := List.mem_filter.mp hraw
        exact Or.inr ⟨raw, htoken, Or.inl ⟨of_decide_eq_true hhttp, hitem⟩⟩
    refine ⟨fun raw hraw url hurl => ?_, fun raw hraw url host hurl hhost => ?_,
      fun token htoken address haddress => ?_⟩
    · have hquery := h .url url (hwritten raw hraw _ (mem_urlCandidates.mpr ⟨url, hurl, Or.inl rfl⟩))
      rw [isCandidatePost, Bool.or_eq_true, decide_eq_true_eq] at hquery
      exact hquery
    · obtain ⟨found, hfound, hne, -⟩ := host_of_urlOf hurl
      obtain rfl := Option.some.inj (hfound.symm.trans hhost)
      exact h .domain found (hwritten raw (List.mem_append_left _ hraw) _
        (mem_urlCandidates.mpr ⟨url, hurl, Or.inr ⟨found, hhost, hne, rfl⟩⟩))
    · refine h .ipv6 address (mem_matchCandidates.mpr (Or.inr ⟨token, htoken, Or.inr (Or.inr ?_)⟩))
      have hread : normalizeIndicator library.textTools "IPV6" token =
          (addressOf library.textTools 6 token).map fun value => { type := .ipv6, value := value } :=
        normalizeIndicator_token (cleanToken_spec htoken).2 (by decide)
      refine ⟨"IPV6", by decide, hread.trans ?_⟩
      rw [addressOf_of_ipAddress haddress]
      rfl
  · intro h kind value hitem
    rcases mem_matchCandidates.mp hitem with ⟨raw, hraw, hitem⟩ | ⟨token, htoken, hitem⟩
    · exact h.urlCandidates (List.mem_append_left _ hraw) (h.hosts raw hraw) hitem
    · rcases hitem with ⟨hhttp, hitem⟩ | ⟨-, -, domain, hdomain, heq⟩ | ⟨name, hname, hnormal⟩
      · refine h.urlCandidates ?_ (fun url host => standsIn_host htoken) hitem
        exact List.mem_append_right _ (List.mem_filter.mpr ⟨htoken, decide_eq_true hhttp⟩)
      · obtain ⟨rfl, rfl⟩ := NormalizedIndicator.mk.inj heq
        exact standsIn_domain htoken hdomain
      · obtain ⟨hne, hstands⟩ := standsIn_scanned htoken hname hnormal
        have hfound : StandsIn library value post := by
          rcases hstands with hstands | ⟨-, haddress⟩
          · exact hstands
          · exact h.addresses token htoken value haddress
        cases kind <;> first | exact absurd rfl hne | exact hfound

/-! ## A URL without a path -/

/-- A library for text that is ASCII. -/
def ascii : StandardLibrary where
  lower value := value
  idna _ := none
  acceptsNetloc _ := true
  acceptsBrackets _ := true
  ipv6 _ := none
  databaseLower c := c

def barePost : SocialPostModel where
  postId := "post"
  scopeId := "scope"
  text := "see http://bad.example now"
  urls := ["http://bad.example"]
  eventTime := 250
  mentions := [some "asset"]

/-- The normal form of the URL ends with a slash, and the text does not have it. -/
theorem prefilter_drops_bare_url : ¬ PrefilterComplete ascii barePost := by
  intro h
  have hmention : { type := .url, value := "http://bad.example/" } ∈
      candidatesOfPost ascii.matchTools barePost := by decide +kernel
  have hdropped : isCandidatePost ascii.matchTools .url "http://bad.example/" barePost = false := by
    decide +kernel
  exact absurd ((h .url "http://bad.example/" hmention).symm.trans hdropped) (by decide)

end StandardLibrary

end Intelligence
end Scam2Market
