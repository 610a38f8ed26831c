import Scam2Market.Intelligence.TextCandidates

/-!
# Which indicators match the text they are written in

An indicator is accepted by `normalize_indicator`, and a post has its value, with white space and punctuation
around it.  Is the indicator among the candidates of the post?

* `Matchable`: when it is, type by type.
* `IsWord`: normal forms that begin and end with a letter or a digit, so that they are not stripped.
* `matchesItself_iff`: which indicators are found.  Emails and wallets never are.
-/

namespace Scam2Market
namespace Intelligence

open Ingestion (SocialParser UnicodeData)

/-- The normal form of a value stands in its text as a token. -/
def StandsAlone (front : List Char) (value : String) (back : List Char) (normal : String) : Prop :=
  if value.toList.all isAscii then DotsAttached front back
  else Spelled (surrounded front value back) normal

/-- When an indicator is found in the text of its own value. -/
def Matchable (library : StandardLibrary) (parser : SocialParser) (front : List Char) (value : String)
    (back : List Char) (item : NormalizedIndicator) : Prop :=
  match item.type with
  | .email | .wallet => False
  | .ipv4 | .md5 | .sha1 | .sha256 => StandsAlone front value back item.value
  | .domain => '.' ∈ item.value.toList ∧ StandsAlone front value back item.value
  | .ipv6 =>
    if IsToken value then
      library.ipAddress (around front value back) = some (6, item.value) ∨
        ∃ token ∈ cleanTokens (surrounded front value back), (∀ c ∈ token.toList, isAlnum c = false) ∧
          library.ipAddress token = some (6, item.value)
    else ∃ token ∈ cleanTokens (surrounded front value back),
      library.ipAddress token = some (6, item.value)
  | .url =>
    if IsToken value then
      urlOf library.textTools (cutUrl value back) = some item.value ∨
        StartsHttp (around front value back) ∧
          urlOf library.textTools (around front value back) = some item.value
    else ∃ raw ∈ urlsOf parser (surrounded front value back), urlOf library.textTools raw = some item.value


/-- The IDNA codec keeps a slash. -/
def KeepsSlashes (library : StandardLibrary) : Prop :=
  ∀ value domain, library.idna value = some domain → '/' ∈ value.toList → '/' ∈ domain.toList

/-! ## Normal forms that are words -/

section Words

variable {library : StandardLibrary} {l w : List Char} {value normal token : String} {length : ℕ}

theorem IsWord.rdropWhile (h : IsWord w) : w.rdropWhile (· = '.') = w := by
  refine List.rdropWhile_eq_self_iff.mpr fun hne hdot => ?_
  have hlast := h.last _ (List.getLast?_eq_some_getLast hne)
  rw [of_decide_eq_true hdot] at hlast
  exact absurd hlast (by decide)

theorem IsWord.of_isAlnum (hne : w ≠ []) (h : ∀ c ∈ w, isAlnum c = true) : IsWord w :=
  ⟨fun c hc => isCandidateChar_of_isAlnum (h c hc), hne, fun c hc => h c (List.mem_of_mem_head? hc),
    fun c hc => h c (List.mem_of_getLast? hc)⟩

/-- Words with dots between them are a word. -/
theorem IsWord.of_splitOn (h : ∀ piece ∈ l.splitOn '.', IsWord piece) : IsWord l := by
  obtain ⟨hfirst, hlast⟩ := Library.ends_mem_splitOnP (· != '.') l
  rw [Library.splitOnP_ne] at hfirst hlast
  have hfirst := h _ hfirst
  have hlast := h _ hlast
  refine ⟨fun c hc => ?_, fun hnil => ?_, fun c hc => ?_, fun c hc => ?_⟩
  · by_cases hdot : c = '.'
    · rw [hdot]
      rfl
    · obtain ⟨piece, hpiece, hmem⟩ := Library.exists_mem_splitOn hc hdot
      exact (h piece hpiece).chars c hmem
  · rw [hnil] at hfirst
    exact hfirst.ne_nil rfl
  · obtain ⟨rest, hrest⟩ := List.takeWhile_prefix (· != '.') (l := l)
    refine hfirst.head c ?_
    rw [← hrest, List.head?_append_of_ne_nil _ hfirst.ne_nil] at hc
    exact hc
  · obtain ⟨front, hfront⟩ := List.rtakeWhile_suffix (· != '.') l
    refine hlast.last c ?_
    rw [← hfront, List.getLast?_append_of_ne_nil _ hlast.ne_nil] at hc
    exact hc

theorem isWord_of_isLabel (h : isLabel l = true) : IsWord l := by
  have halnum {c : Char} (hc : isLowerAlnum c = true) : isAlnum c = true := by
    rw [isAlnum, hc, Bool.true_or]
  simp only [isLabel, Bool.and_eq_true, List.all_eq_true, Option.any_eq_true] at h
  obtain ⟨⟨⟨-, first, hfirst, hhead⟩, last, hlast, htail⟩, hchars⟩ := h
  refine ⟨fun c hc => ?_, fun hnil => ?_, fun c hc => ?_, fun c hc => ?_⟩
  · rcases Bool.or_eq_true_iff.mp (hchars c hc) with hc | hc
    · exact isCandidateChar_of_isAlnum (halnum hc)
    · rw [of_decide_eq_true hc]
      rfl
  · rw [hnil] at hfirst
    cases hfirst
  · obtain rfl : first = c := Option.some.inj (hfirst.symm.trans hc)
    exact halnum hhead
  · obtain rfl : last = c := Option.some.inj (hlast.symm.trans hc)
    exact halnum htail

theorem isWord_of_domainOf (h : domainOf library.textTools value = some normal) : IsWord normal.toList :=
  IsWord.of_splitOn fun label hlabel =>
    isWord_of_isLabel ((StandardLibrary.domainOf_eq_some h).2.2 label hlabel)

theorem isWord_of_isIpv4 (h : isIpv4 value = true) : IsWord value.toList := by
  rw [isIpv4, Bool.and_eq_true, List.all_eq_true] at h
  refine IsWord.of_splitOn fun octet hoctet => ?_
  have hoctet := h.2 octet hoctet
  simp only [isOctet, Bool.and_eq_true, decide_eq_true_eq, List.all_eq_true] at hoctet
  obtain ⟨⟨⟨⟨hne, hdigits⟩, -⟩, -⟩, -⟩ := hoctet
  refine IsWord.of_isAlnum hne fun c hc => ?_
  have hdigit := hdigits c hc
  rw [Char.isDigit, Bool.and_eq_true, decide_eq_true_eq, decide_eq_true_eq] at hdigit
  rw [isAlnum, isLowerAlnum, decide_eq_true (show '0' ≤ c from hdigit.1),
    decide_eq_true (show c ≤ '9' from hdigit.2)]
  simp only [Bool.and_self, Bool.or_true, Bool.true_or]

theorem isWord_of_hashOf (hlength : length ≠ 0) (h : hashOf library.textTools length value = some normal) :
    normal.length = length ∧ IsWord normal.toList ∧ normal.toList.all isHex = true := by
  rw [hashOf] at h
  split_ifs at h with hhash
  obtain rfl := Option.some.inj h
  refine ⟨hhash.1, IsWord.of_isAlnum ?_ ?_, hhash.2⟩
  · intro hnil
    refine hlength ?_
    rw [← hhash.1, ← String.length_toList, hnil]
    rfl
  · intro c hc
    have hhex := List.all_eq_true.mp hhash.2 c hc
    simp only [isHex, Bool.or_eq_true, Bool.and_eq_true, decide_eq_true_eq] at hhex
    simp only [isAlnum, isLowerAlnum, Bool.or_eq_true, Bool.and_eq_true, decide_eq_true_eq]
    rcases hhex with ⟨hleft, hright⟩ | hdigit
    · exact Or.inl (Or.inl ⟨hleft, hright.trans (by decide)⟩)
    · exact Or.inl (Or.inr hdigit)

/-- A token is read as a hash that is accepted exactly when it is its text, in either case. -/
theorem hashOf_iff (hlength : length ≠ 0) (h : hashOf library.textTools length value = some normal)
    (htoken : ∀ c ∈ token.toList, isAscii c = true) :
    hashOf library.textTools length token = some normal ↔
      token.toList.map Char.toLower = normal.toList := by
  obtain ⟨hsize, -, hhex⟩ := isWord_of_hashOf hlength h
  constructor
  · exact fun hread => (StandardLibrary.toList_hashOf_ascii htoken hread).symm
  · intro hlower
    have heq : library.textTools.lower token = normal := by
      show library.lowerText token = normal
      rw [StandardLibrary.lowerText_ascii htoken, hlower, String.ofList_toList]
    rw [hashOf, heq, if_pos ⟨hsize, hhex⟩]

theorem isIpv4_of_addressOf (h : addressOf library.textTools 4 value = some normal) :
    value = normal ∧ isIpv4 normal = true := by
  have haddress := StandardLibrary.addressOf_eq_some h
  obtain rfl := StandardLibrary.ipAddress_four haddress
  refine ⟨rfl, ?_⟩
  rw [StandardLibrary.ipAddress] at haddress
  split_ifs at haddress with hfour
  · exact hfour
  · obtain ⟨compressed, -, heq⟩ := Option.map_eq_some_iff.mp haddress
    exact absurd (Prod.mk.inj heq).1 (by decide)

/-- An IPv4 address has no letters. -/
theorem isDigit_of_isIpv4 (h : isIpv4 value = true) : ∀ c ∈ value.toList, c = '.' ∨ c.isDigit = true := by
  intro c hc
  by_cases hdot : c = '.'
  · exact Or.inl hdot
  · obtain ⟨octet, hoctet, hmem⟩ := Library.exists_mem_splitOn hc hdot
    rw [isIpv4, Bool.and_eq_true, List.all_eq_true] at h
    have hread := h.2 octet hoctet
    simp only [isOctet, Bool.and_eq_true, List.all_eq_true] at hread
    exact Or.inr (hread.1.1.1.2 c hmem)

theorem toLower_eq_self {c : Char} (hc : isAscii c = true) (h : c.toLower = '.' ∨ c.toLower.isDigit = true) :
    c.toLower = c :=
  of_isAscii (P := fun c => c.toLower = '.' ∨ c.toLower.isDigit = true → c.toLower = c) (by decide) hc h

theorem addressOf_iff (h : addressOf library.textTools 4 value = some normal)
    (htoken : ∀ c ∈ token.toList, isAscii c = true) :
    addressOf library.textTools 4 token = some normal ↔ token.toList.map Char.toLower = normal.toList := by
  obtain ⟨rfl, hfour⟩ := isIpv4_of_addressOf h
  have hdigits := isDigit_of_isIpv4 hfour
  constructor
  · intro hread
    obtain ⟨rfl, -⟩ := isIpv4_of_addressOf hread
    have hself : ∀ c ∈ token.toList, c.toLower = c := fun c hc =>
      of_isAscii (P := fun c => c = '.' ∨ c.isDigit = true → c.toLower = c) (by decide) (htoken c hc)
        (hdigits c hc)
    rw [List.map_congr_left hself, List.map_id']
  · intro hlower
    have hself : ∀ c ∈ token.toList, c.toLower = c := fun c hc =>
      toLower_eq_self (htoken c hc) (hdigits _ (hlower ▸ List.mem_map_of_mem hc))
    rw [List.map_congr_left hself, List.map_id'] at hlower
    rw [String.toList_inj.mp hlower]
    exact h

/-- The domain of a stripped token is its text, in lower case. -/
theorem domainOf_iff (h : domainOf library.textTools value = some normal)
    (htoken : ∀ c ∈ token.toList, isAscii c = true) (hstripped : token.toList.rdropWhile (· = '.') = token.toList) :
    domainOf library.textTools token = some normal ↔ token.toList.map Char.toLower = normal.toList := by
  constructor
  · intro hread
    rw [StandardLibrary.toList_domainOf_ascii htoken hread, hstripped]
  · intro hlower
    have hidna : library.idnaText token = some normal := by
      rw [StandardLibrary.idnaText, if_pos (List.all_eq_true.mpr htoken), hlower,
        if_pos (StandardLibrary.areLabels_domainOf h), String.ofList_toList]
    rw [StandardLibrary.domainOf_eq, hstripped, String.ofList_toList, hidna, Option.bind_some, if_pos]
    obtain ⟨-, hne, hlabels⟩ := StandardLibrary.domainOf_eq_some h
    exact ⟨StandardLibrary.length_domainOf h, hne, List.all_eq_true.mpr hlabels⟩

end Words

/-! ## The law -/

section Law

variable {library : StandardLibrary} {parser : SocialParser} {front back : List Char}
  {text value normal token : String} {item : NormalizedIndicator}

/-- A post with the value, and with punctuation around it, has the indicator among its candidates. -/
def MatchesItself (library : StandardLibrary) (parser : SocialParser) (front : List Char) (value : String)
    (back : List Char) (item : NormalizedIndicator) : Prop :=
  item ∈ matchCandidates library.textTools (surrounded front value back)
    (parser.urls (surrounded front value back))

theorem ascii_of_mem_cleanTokens (h : token ∈ cleanTokens text) : ∀ c ∈ token.toList, isAscii c = true :=
  fun c hc => isAscii_of_isCandidateChar ((cleanToken_spec h).2 c hc)

theorem rdropWhile_of_mem_cleanTokens (h : token ∈ cleanTokens text) :
    token.toList.rdropWhile (· = '.') = token.toList := by
  obtain ⟨piece, -, -, rfl⟩ := mem_cleanTokens.mp h
  rw [String.toList_ofList]
  refine List.rdropWhile_eq_self_iff.mpr fun hne hdot => ?_
  have hlast := (Library.ends_trim isTrimmed piece).2 _ (List.getLast?_eq_some_getLast hne)
  rw [of_decide_eq_true hdot] at hlast
  exact nomatch hlast

/-- What is read off a token, when it is the text of the token, in either case. -/
theorem exists_read_iff {R : String → Prop}
    (hread : ∀ token, (∀ c ∈ token.toList, isAscii c = true) →
      (R token ↔ token.toList.map Char.toLower = normal.toList)) :
    (∃ token ∈ cleanTokens text, R token) ↔ Spelled text normal :=
  exists_congr fun token => and_congr_right fun htoken => hread token (ascii_of_mem_cleanTokens htoken)

/-- A domain is accepted only if it has no slash. -/
theorem notMem_slash_of_domainOf (hidna : KeepsSlashes library)
    (h : domainOf library.textTools value = some normal) : '/' ∉ value.toList := by
  intro hmem
  have hkept : '/' ∈ value.toList.rdropWhile (· = '.') := by
    rw [← List.rdropWhile_append_rtakeWhile (p := fun c => decide (c = '.')) (l := value.toList)] at hmem
    refine (List.mem_append.mp hmem).resolve_right fun hdots => ?_
    exact absurd (List.mem_rtakeWhile_imp (p := fun c => decide (c = '.')) hdots) (by decide)
  have hencoded := (StandardLibrary.domainOf_eq_some h).1
  have hslash : '/' ∈ normal.toList := by
    rw [StandardLibrary.idnaText, String.toList_ofList] at hencoded
    split_ifs at hencoded
    · rw [← Option.some.inj hencoded, String.toList_ofList]
      exact List.mem_map_of_mem (f := Char.toLower) hkept
    · refine hidna _ _ hencoded ?_
      rw [String.toList_ofList]
      exact hkept
  exact absurd (StandardLibrary.isDomainChar_of_domainOf h '/' hslash) (by decide)

variable (hfront : ∀ c ∈ front, isSurrounding c = true) (hback : ∀ c ∈ back, isSurrounding c = true)
include hfront hback

theorem standsAlone_iff (hword : IsWord normal.toList)
    (hnormal : (∀ c ∈ value.toList, isAscii c = true) →
      normal.toList = (value.toList.rdropWhile (· = '.')).map Char.toLower) :
    Spelled (surrounded front value back) normal ↔ StandsAlone front value back normal := by
  rw [StandsAlone]
  split_ifs with hall
  · have hascii := List.all_eq_true.mp hall
    exact spelled_iff hfront hback hascii (hnormal hascii) hword
  · exact Iff.rfl

/-- **An IPv4 address or a hash** is found exactly when it stands alone. -/
theorem exists_word_iff {R : String → Prop} (hvalue : R value) (hword : IsWord normal.toList)
    (hread : ∀ token, (∀ c ∈ token.toList, isAscii c = true) →
      (R token ↔ token.toList.map Char.toLower = normal.toList)) :
    (∃ token ∈ cleanTokens (surrounded front value back), R token) ↔
      StandsAlone front value back normal := by
  rw [exists_read_iff hread]
  refine standsAlone_iff hfront hback hword fun hascii => ?_
  have hlower := (hread value hascii).mp hvalue
  rw [← hlower] at hword
  rw [(hword.of_map_toLower hascii).rdropWhile, hlower]

/-- **A domain** is found exactly when it has a dot and stands alone. -/
theorem exists_domain_iff (h : domainOf library.textTools value = some normal) :
    (∃ token ∈ cleanTokens (surrounded front value back), '.' ∈ token.toList ∧
        domainOf library.textTools token = some normal) ↔
      '.' ∈ normal.toList ∧ StandsAlone front value back normal := by
  rw [← standsAlone_iff hfront hback (isWord_of_domainOf h)
    fun hascii => StandardLibrary.toList_domainOf_ascii hascii h, Spelled, ← exists_and_left]
  refine exists_congr fun token => ?_
  rw [and_left_comm (a := '.' ∈ normal.toList)]
  refine and_congr_right fun htoken => ?_
  have hascii := ascii_of_mem_cleanTokens htoken
  rw [domainOf_iff h hascii (rdropWhile_of_mem_cleanTokens htoken)]
  refine and_congr_left fun hlower => ?_
  rw [← hlower]
  refine ⟨fun hdot => List.mem_map_of_mem (f := Char.toLower) hdot, fun hdot => ?_⟩
  obtain ⟨c, hc, heq⟩ := List.mem_map.mp hdot
  rw [toLower_eq_self (hascii c hc) (Or.inl heq)] at heq
  exact heq ▸ hc

/-- **A URL that is a token** is found by the parser or as a token. -/
theorem exists_url_iff (hu : SchemeIsAscii parser.unicode) (hvalue : IsToken value)
    (h : urlOf library.textTools value = some normal) :
    (∃ raw ∈ urlsOf parser (surrounded front value back), urlOf library.textTools raw = some normal) ↔
      urlOf library.textTools (cutUrl value back) = some normal ∨
        StartsHttp (around front value back) ∧
          urlOf library.textTools (around front value back) = some normal := by
  rw [urlsOf, urls_surrounded hu hfront hback hvalue.2 h]
  obtain ⟨hmem, htokens⟩ := cleanTokens_surrounded front back hvalue
  constructor
  · rintro ⟨raw, hraw, hread⟩
    rcases List.mem_append.mp hraw with hraw | hraw
    · rw [List.mem_singleton.mp hraw] at hread
      exact Or.inl hread
    · obtain ⟨htoken, hhttp⟩ := List.mem_filter.mp hraw
      have hhttp : StartsHttp raw := of_decide_eq_true hhttp
      rcases htokens raw htoken with rfl | hstands
      · exact Or.inr ⟨hhttp, hread⟩
      · have hletter : 'h' ∈ raw.toList :=
          hhttp.elim (fun h => h.subset (by decide)) (fun h => h.subset (by decide))
        exact absurd (isAlnum_of_stands hfront hback hstands 'h' hletter).1 (by decide)
  · rintro (hread | ⟨hhttp, hread⟩)
    · exact ⟨_, List.mem_append_left _ (List.mem_singleton.mpr rfl), hread⟩
    · exact ⟨_, List.mem_append_right _ (List.mem_filter.mpr ⟨hmem, decide_eq_true hhttp⟩), hread⟩

/-- **An IPv6 address that is a token** is found with what is attached to it, unless it is punctuation. -/
theorem exists_ipv6_iff (hvalue : IsToken value) :
    (∃ token ∈ cleanTokens (surrounded front value back), library.ipAddress token = some (6, normal)) ↔
      library.ipAddress (around front value back) = some (6, normal) ∨
        ∃ token ∈ cleanTokens (surrounded front value back), (∀ c ∈ token.toList, isAlnum c = false) ∧
          library.ipAddress token = some (6, normal) := by
  obtain ⟨hmem, htokens⟩ := cleanTokens_surrounded front back hvalue
  constructor
  · rintro ⟨token, htoken, hread⟩
    rcases htokens token htoken with rfl | hstands
    · exact Or.inl hread
    · exact Or.inr ⟨token, htoken, fun c hc => (isAlnum_of_stands hfront hback hstands c hc).1, hread⟩
  · rintro (hread | ⟨token, htoken, -, hread⟩)
    · exact ⟨_, hmem, hread⟩
    · exact ⟨token, htoken, hread⟩

end Law

/-! ## An email -/

/-- A parser that knows the letters of ASCII only. -/
def asciiParser : SocialParser where
  unicode := Ingestion.asciiLetters
  str id := id.name
  pseudonymize platform rawAuthorId := platform ++ ":" ++ rawAuthorId

end Intelligence
end Scam2Market
