import Scam2Market.Intelligence.TextTools

/-!
# URLs in normal form

* `urlOf_eq_some`: what a URL in normal form is made of.
* `urlsplit_canonical`: it is split into its host and the rest.
* `host_of_urlOf`: its host is the one that was written, in lower case and without dots at its end.
-/

namespace Scam2Market
namespace Intelligence

/-! ## Parts of a text -/

theorem before_within (separator : Char) (text : List Char) : before separator text <:+: text :=
  (List.takeWhile_prefix _).isInfix

theorem behind_within (separator : Char) (text : List Char) : behind separator text <:+: text :=
  ((List.tail_suffix _).trans (List.dropWhile_suffix _)).isInfix

theorem behindLast_within (separator : Char) (text : List Char) : behindLast separator text <:+: text :=
  (List.rtakeWhile_suffix _ text).isInfix

theorem hostInfo_within (netloc : List Char) : (hostInfo netloc).1 <:+: netloc := by
  have hinfo := behindLast_within '@' netloc
  rw [hostInfo]
  split_ifs
  · exact ((before_within ']' _).trans (behind_within '[' _)).trans hinfo
  · exact (before_within ':' _).trans hinfo

theorem splitScheme_within (url : List Char) : (splitScheme url).2 <:+: url := by
  rw [splitScheme]
  split_ifs
  · exact behind_within ':' url
  · exact List.infix_rfl

theorem splitNetloc_within (url : List Char) : (splitNetloc url).1 <:+: url := by
  rw [splitNetloc]
  split_ifs
  · exact (List.takeWhile_prefix _).isInfix.trans (List.drop_suffix 2 url).isInfix
  · exact List.nil_infix

theorem before_append {separator : Char} {text : List Char} (h : separator ∉ text) (rest : List Char) :
    before separator (text ++ separator :: rest) = text := by
  rw [before, List.takeWhile_append_of_pos, List.takeWhile_cons_of_neg (by simp), List.append_nil]
  intro c hc
  exact decide_eq_true (ne_of_mem_of_not_mem hc h)

theorem before_eq_self {separator : Char} {text : List Char} (h : separator ∉ text) :
    before separator text = text :=
  List.takeWhile_eq_self_iff.mpr fun _ hc => decide_eq_true (ne_of_mem_of_not_mem hc h)

theorem behind_append {separator : Char} {text : List Char} (h : separator ∉ text) (rest : List Char) :
    behind separator (text ++ separator :: rest) = rest := by
  rw [behind, List.dropWhile_append_of_pos, List.dropWhile_cons_of_neg (by simp), List.tail_cons]
  intro c hc
  exact decide_eq_true (ne_of_mem_of_not_mem hc h)

theorem before_append_behind {separator : Char} {text : List Char} (h : separator ∈ text) :
    before separator text ++ separator :: behind separator text = text := by
  rcases Library.takeWhile_cases (· ≠ separator) text with hall | ⟨c, rest, hc, hsplit⟩
  · exact absurd (hall separator h) (by simp)
  · have hc : c = separator := by simpa using hc
    have hbefore : separator ∉ before separator text := fun hmem => by
      simpa using List.mem_takeWhile_imp hmem
    rw [hc] at hsplit
    change text = before separator text ++ separator :: rest at hsplit
    conv_lhs => rw [hsplit]
    rw [before_append hbefore, behind_append hbefore, ← hsplit]

theorem behind_eq_nil {separator : Char} {text : List Char} (h : separator ∉ text) :
    behind separator text = [] := by
  rw [behind, List.dropWhile_eq_nil_iff.mpr, List.tail_nil]
  exact fun _ hc => decide_eq_true (ne_of_mem_of_not_mem hc h)

theorem behindLast_eq_self {separator : Char} {text : List Char} (h : separator ∉ text) :
    behindLast separator text = text :=
  List.rtakeWhile_eq_self_iff.mpr fun _ hc => decide_eq_true (ne_of_mem_of_not_mem hc h)

theorem printed_of_isCandidateChar {c : Char} (h : isCandidateChar c = true) : 32 < c.toNat := by
  rw [isCandidateChar, Bool.or_eq_true, decide_eq_true_iff] at h
  rcases h with h | h
  · have hle : '0' ≤ c := by
      simp only [isAlnum, isLowerAlnum, Bool.or_eq_true, Bool.and_eq_true, decide_eq_true_eq] at h
      rcases h with (⟨h, -⟩ | ⟨h, -⟩) | ⟨h, -⟩
      · exact le_trans (by decide) h
      · exact h
      · exact le_trans (by decide) h
    exact Nat.lt_of_lt_of_le (by decide) hle
  · exact of_decide_eq_true ((List.all_eq_true (p := fun c => 32 < c.toNat)).mp (by decide) c h)

/-- A token is split as it stands. -/
theorem cleanUrl_of_candidates {value : String} (hvalue : ∀ c ∈ value.toList, isCandidateChar c = true) :
    cleanUrl value = value.toList := by
  have hfront : (value.toList.dropWhile fun c => c.toNat ≤ 32) = value.toList := by
    cases htext : value.toList with
    | nil => rfl
    | cons c rest =>
      have hc := printed_of_isCandidateChar (hvalue c (by rw [htext]; exact List.mem_cons_self))
      rw [List.dropWhile_cons_of_neg (by simpa using hc)]
  rw [cleanUrl, hfront, List.filter_eq_self]
  intro c hc
  have hprinted := printed_of_isCandidateChar (hvalue c hc)
  refine decide_eq_true fun hmem => ?_
  simp only [List.mem_cons, List.not_mem_nil, or_false] at hmem
  rcases hmem with rfl | rfl | rfl <;> exact absurd hprinted (by decide)

/-- What holds of the first 128 characters. -/
theorem of_isAscii {P : Char → Prop} (h : ∀ n < 128, P (Char.ofNat n)) {c : Char}
    (hc : isAscii c = true) : P c := by
  have hcode := h c.toNat (of_decide_eq_true hc)
  rwa [Char.ofNat_toNat] at hcode

theorem toLower_ascii {c : Char} (hc : isAscii c = true) :
    isAscii c.toLower = true ∧ c.toLower.toLower = c.toLower :=
  of_isAscii (P := fun c => isAscii c.toLower = true ∧ c.toLower.toLower = c.toLower)
    (by decide) hc

theorem map_toLower_toLower {text : List Char} (htext : ∀ c ∈ text, isAscii c = true) :
    (text.map Char.toLower).map Char.toLower = text.map Char.toLower := by
  rw [List.map_map]
  exact List.map_congr_left fun c hc => (toLower_ascii (htext c hc)).2

theorem isAscii_map_toLower {text : List Char} (htext : ∀ c ∈ text, isAscii c = true) :
    ∀ c ∈ text.map Char.toLower, isAscii c = true := by
  intro c hc
  obtain ⟨d, hd, rfl⟩ := List.mem_map.mp hc
  exact (toLower_ascii (htext d hd)).1

namespace StandardLibrary

variable {library : StandardLibrary}

/-- A host that is ASCII stands in the netloc, in lower case. -/
theorem hostnameOf_ascii {netloc : List Char} {name : String} (hnetloc : ∀ c ∈ netloc, isAscii c = true)
    (h : library.hostnameOf netloc = some name) :
    (∀ c ∈ name.toList, isAscii c = true) ∧
      name.toList.map Char.toLower = (hostInfo netloc).1.map Char.toLower := by
  have hinfo : ∀ c ∈ (hostInfo netloc).1, isAscii c = true :=
    fun c hc => hnetloc c ((hostInfo_within netloc).subset hc)
  have hlower {text : List Char} (htext : ∀ c ∈ text, isAscii c = true) :
      (library.lowerText (String.ofList text)).toList = text.map Char.toLower := by
    rw [lowerText_ascii (by rwa [String.toList_ofList]), String.toList_ofList, String.toList_ofList]
  rw [hostnameOf] at h
  split_ifs at h with hname hzone
  · obtain rfl := Option.some.inj h
    have hbefore : ∀ c ∈ before '%' (hostInfo netloc).1, isAscii c = true :=
      fun c hc => hinfo c ((before_within '%' _).subset hc)
    have hwhole := before_append_behind hzone
    have htext : (library.lowerText (String.ofList (before '%' (hostInfo netloc).1)) ++ "%" ++
        String.ofList (behind '%' (hostInfo netloc).1)).toList =
          (before '%' (hostInfo netloc).1).map Char.toLower ++
            '%' :: behind '%' (hostInfo netloc).1 := by
      rw [String.toList_append, String.toList_append, hlower hbefore, String.toList_ofList,
        String.toList_ofList, List.append_assoc, List.singleton_append]
    rw [htext]
    constructor
    · intro c hc
      rcases List.mem_append.mp hc with hc | hc
      · exact isAscii_map_toLower hbefore c hc
      · exact hinfo c (hwhole ▸ List.mem_append_right _ hc)
    · conv_rhs => rw [← hwhole]
      rw [List.map_append, List.map_append, map_toLower_toLower hbefore]
  · obtain rfl := Option.some.inj h
    rw [hlower hinfo]
    exact ⟨isAscii_map_toLower hinfo, map_toLower_toLower hinfo⟩

/-! ## The canonical URL -/

/-- The port of a canonical URL. -/
def portText (port : Option ℕ) : String :=
  match port with
  | some port => if port = 0 ∨ port = 80 ∨ port = 443 then "" else s!":{port}"
  | none => ""

def pathText (path : String) : String :=
  if path = "" then "/" else path

def queryText (query : String) : String :=
  if query = "" then "" else "?" ++ query

/-- The port of a canonical URL. -/
def IsPort (port : List Char) : Prop :=
  port = [] ∨ ∃ n ≤ 65535, port = ':' :: n.repr.toList

/-- The text of a port, if there is one. -/
def portChars (port : Option ℕ) : List Char :=
  match port with
  | some n => ':' :: n.repr.toList
  | none => []

theorem exists_portChars {port : List Char} (h : IsPort port) :
    ∃ p, port = portChars p ∧ ∀ n, p = some n → n ≤ 65535 := by
  rcases h with rfl | ⟨n, hn, rfl⟩
  · exact ⟨none, rfl, fun _ h => nomatch h⟩
  · exact ⟨some n, rfl, fun _ h => Option.some.inj h ▸ hn⟩

theorem isPort_portChars {port : Option ℕ} (hport : ∀ n, port = some n → n ≤ 65535) :
    IsPort (portChars port) := by
  cases port with
  | none => exact Or.inl rfl
  | some n => exact Or.inr ⟨n, hport n rfl, rfl⟩

theorem isPort_portText {port : Option ℕ} (hport : ∀ n, port = some n → n ≤ 65535) :
    IsPort (portText port).toList := by
  cases port with
  | none => exact Or.inl rfl
  | some n =>
    rw [portText]
    split_ifs with hdefault
    · exact Or.inl rfl
    · refine Or.inr ⟨n, hport n rfl, ?_⟩
      rw [String.toList_append]
      rfl

theorem endsNetloc_of_isDomainChar {c : Char} (h : isDomainChar c = true) :
    isAscii c = true ∧ c.toLower = c ∧ 32 < c.toNat ∧
      c ∉ ['/', '?', '#', '@', '[', ']', ':', '%', '\\'] := by
  have hascii : isAscii c = true := by
    rw [isDomainChar, Bool.or_eq_true, Bool.or_eq_true] at h
    rcases h with (h | h) | h
    · exact isAscii_of_isAlnum (by rw [isAlnum, h, Bool.true_or])
    · rw [of_decide_eq_true h]
      rfl
    · rw [of_decide_eq_true h]
      rfl
  have hrest : isDomainChar c = true → c.toLower = c ∧ 32 < c.toNat ∧
      c ∉ ['/', '?', '#', '@', '[', ']', ':', '%', '\\'] :=
    of_isAscii (P := fun c => isDomainChar c = true → c.toLower = c ∧ 32 < c.toNat ∧
      c ∉ ['/', '?', '#', '@', '[', ']', ':', '%', '\\']) (by decide) hascii
  exact ⟨hascii, hrest h⟩

/-- The characters of a netloc without user and brackets. -/
def isPlainNetloc (netloc : List Char) : Prop :=
  ∀ c ∈ netloc, isAscii c = true ∧ 32 < c.toNat ∧ c ∉ ['/', '?', '#', '@', '[', ']']

theorem isPlainNetloc_host {host : List Char} (hhost : ∀ c ∈ host, isDomainChar c = true) :
    isPlainNetloc host := by
  intro c hc
  obtain ⟨hascii, -, hprinted, hspecial⟩ := endsNetloc_of_isDomainChar (hhost c hc)
  refine ⟨hascii, hprinted, fun hmem => hspecial ?_⟩
  simp only [List.mem_cons, List.not_mem_nil, or_false] at hmem ⊢
  tauto

theorem isPlainNetloc_port {port : List Char} (hport : IsPort port) : isPlainNetloc port := by
  rcases hport with rfl | ⟨n, -, rfl⟩
  · exact fun _ h => absurd h List.not_mem_nil
  · intro c hc
    rcases List.mem_cons.mp hc with rfl | hc
    · decide
    · rw [Nat.toList_repr] at hc
      have hdigit := Nat.isDigit_of_mem_toDigits (by decide) (by decide) hc
      have hascii : isAscii c = true := by
        rw [Char.isDigit, Bool.and_eq_true, decide_eq_true_iff, decide_eq_true_iff] at hdigit
        have hle : c ≤ '9' := hdigit.2
        exact decide_eq_true (Nat.lt_of_le_of_lt hle (by decide))
      have hrest : c.isDigit = true → 32 < c.toNat ∧ c ∉ ['/', '?', '#', '@', '[', ']'] :=
        of_isAscii (P := fun c => c.isDigit = true →
          32 < c.toNat ∧ c ∉ ['/', '?', '#', '@', '[', ']']) (by decide) hascii
      exact ⟨hascii, hrest hdigit⟩

theorem portOf_append {host : List Char} {port : Option ℕ}
    (hhost : ∀ c ∈ host, isDomainChar c = true) (hport : ∀ n, port = some n → n ≤ 65535) :
    (hostInfo (host ++ portChars port)).1 = host ∧ portOf (host ++ portChars port) = some port := by
  have hplain {c : Char} (hc : c ∈ ['@', '[']) : c ∉ host ++ portChars port := by
    intro hmem
    have hspecial : c ∉ ['/', '?', '#', '@', '[', ']'] := by
      rcases List.mem_append.mp hmem with hmem | hmem
      · exact (isPlainNetloc_host hhost c hmem).2.2
      · exact (isPlainNetloc_port (isPort_portChars hport) c hmem).2.2
    simp only [List.mem_cons, List.not_mem_nil, or_false] at hc hspecial
    tauto
  have hcolon : ':' ∉ host := fun hmem => by
    simpa using (endsNetloc_of_isDomainChar (hhost _ hmem)).2.2.2
  have hinfo : hostInfo (host ++ portChars port) =
      (before ':' (host ++ portChars port), behind ':' (host ++ portChars port)) := by
    rw [hostInfo, behindLast_eq_self (hplain (by decide)), if_neg (hplain (by decide))]
  rw [portOf, hinfo]
  cases port with
  | none =>
    rw [portChars, List.append_nil, before_eq_self hcolon, behind_eq_nil hcolon]
    exact ⟨rfl, rfl⟩
  | some n =>
    rw [portChars, before_append hcolon, behind_append hcolon]
    refine ⟨rfl, ?_⟩
    have hdigits : n.repr.toList.all Char.isDigit = true := by
      rw [Nat.toList_repr, List.all_eq_true]
      exact fun c hc => Nat.isDigit_of_mem_toDigits (by decide) (by decide) hc
    have hvalue : Nat.ofDigitChars 10 n.repr.toList 0 = n := by
      rw [Nat.toList_repr, Nat.ofDigitChars_ten_toDigits]
    have hne : n.repr.toList ≠ [] := by
      rw [Nat.toList_repr]
      exact Nat.toDigits_ne_nil
    rw [if_neg hne, if_pos ⟨hdigits, hvalue.symm ▸ hport n rfl⟩, hvalue]

/-- What a line break or a tab is not. -/
def staysInUrl (c : Char) : Bool :=
  c ∉ ['\t', '\r', '\n']

/-- **A canonical URL is split into the parts that it is made of.** -/
theorem urlsplit_parts {url scheme host : String} {port : Option ℕ} {tail : List Char}
    (hscheme : scheme = "http" ∨ scheme = "https")
    (hhost : ∀ c ∈ host.toList, isDomainChar c = true) (hne : host ≠ "")
    (hport : ∀ n, port = some n → n ≤ 65535)
    (hurl : url.toList =
      scheme.toList ++ [':', '/', '/'] ++ host.toList ++ portChars port ++ '/' :: tail) :
    library.urlsplit url = some {
      scheme := scheme
      hostname := some host
      port := port
      path := String.ofList (before '?' (before '#' ('/' :: tail.filter staysInUrl)))
      query := String.ofList (behind '?' (before '#' ('/' :: tail.filter staysInUrl))) } := by
  have hplain : isPlainNetloc (host.toList ++ portChars port) := by
    intro c hc
    rcases List.mem_append.mp hc with hc | hc
    · exact isPlainNetloc_host hhost c hc
    · exact isPlainNetloc_port (isPort_portChars hport) c hc
  have hclean : cleanUrl url = scheme.toList ++ ':' :: '/' :: '/' ::
      (host.toList ++ portChars port ++ '/' :: tail.filter staysInUrl) := by
    have hkept : (host.toList ++ portChars port).filter staysInUrl = host.toList ++ portChars port := by
      refine List.filter_eq_self.mpr fun c hc => decide_eq_true fun hmem => ?_
      have hprinted := (hplain c hc).2.1
      simp only [List.mem_cons, List.not_mem_nil, or_false] at hmem
      rcases hmem with rfl | rfl | rfl <;> exact absurd hprinted (by decide)
    have hfront : (url.toList.dropWhile fun c => c.toNat ≤ 32) = url.toList := by
      rw [hurl]
      rcases hscheme with rfl | rfl <;> rfl
    have hletters : (scheme.toList ++ [':', '/', '/']).filter staysInUrl =
        scheme.toList ++ [':', '/', '/'] := by
      rcases hscheme with rfl | rfl <;> decide
    rw [cleanUrl, hfront, hurl, List.append_assoc _ host.toList]
    change List.filter staysInUrl _ = _
    rw [List.filter_append, List.filter_append, hletters, hkept, List.filter_cons_of_pos (by decide)]
    simp only [List.append_assoc, List.cons_append, List.nil_append]
  have hsplit : splitScheme (cleanUrl url) =
      (scheme.toList, '/' :: '/' :: (host.toList ++ portChars port ++ '/' :: tail.filter staysInUrl)) := by
    rw [hclean, splitScheme]
    have hcolon : ':' ∉ scheme.toList := by rcases hscheme with rfl | rfl <;> decide
    rw [before_append hcolon, behind_append hcolon, if_pos]
    · rcases hscheme with rfl | rfl <;> rfl
    · refine ⟨by simp, ?_⟩
      rcases hscheme with rfl | rfl <;> decide
  have hnetloc : splitNetloc ('/' :: '/' :: (host.toList ++ portChars port ++ '/' :: tail.filter staysInUrl)) =
      (host.toList ++ portChars port, '/' :: tail.filter staysInUrl) := by
    have hstays : ∀ c ∈ host.toList ++ portChars port, (!endsNetloc c) = true := by
      intro c hc
      have hspecial := (hplain c hc).2.2
      rw [endsNetloc, Bool.not_eq_true', decide_eq_false_iff_not]
      simp only [List.mem_cons, List.not_mem_nil, or_false] at hspecial ⊢
      tauto
    rw [splitNetloc, if_pos ⟨_, rfl⟩]
    show ((host.toList ++ portChars port ++ '/' :: tail.filter staysInUrl).takeWhile _,
      (host.toList ++ portChars port ++ '/' :: tail.filter staysInUrl).dropWhile _) = _
    rw [List.takeWhile_append_of_pos hstays, List.dropWhile_append_of_pos hstays,
      List.takeWhile_cons_of_neg (by decide), List.dropWhile_cons_of_neg (by decide), List.append_nil]
  have haccepts : library.accepts (host.toList ++ portChars port) = true := by
    have hopen : '[' ∉ host.toList ++ portChars port := fun hmem => by simpa using (hplain _ hmem).2.2
    have hclose : ']' ∉ host.toList ++ portChars port := fun hmem => by simpa using (hplain _ hmem).2.2
    have hascii : (host.toList ++ portChars port).all isAscii = true :=
      List.all_eq_true.mpr fun c hc => (hplain c hc).1
    rw [accepts, hascii, decide_eq_false hopen, decide_eq_false hclose, decide_eq_true hopen]
    rfl
  obtain ⟨hname, hn⟩ := portOf_append hhost hport
  have hhostname : library.hostnameOf (host.toList ++ portChars port) = some host := by
    have hzone : '%' ∉ host.toList := fun hmem => by
      simpa using (endsNetloc_of_isDomainChar (hhost _ hmem)).2.2.2
    have hnonempty : host.toList ≠ [] := fun h => hne (String.toList_eq_nil_iff.mp h)
    have hlower : host.toList.map Char.toLower = host.toList := by
      conv_rhs => rw [← List.map_id host.toList]
      exact List.map_congr_left fun c hc => (endsNetloc_of_isDomainChar (hhost c hc)).2.1
    rw [hostnameOf, hname, if_neg hnonempty, if_neg hzone, lowerText_ascii, String.toList_ofList, hlower,
      String.ofList_toList]
    rw [String.toList_ofList]
    exact fun c hc => (endsNetloc_of_isDomainChar (hhost c hc)).1
  rw [urlsplit, hsplit]
  dsimp only
  rw [hnetloc]
  dsimp only
  rw [if_pos haccepts, hn, Option.map_some, hhostname, String.ofList_toList]

/-- The host of a canonical URL is found again. -/
theorem urlsplit_canonical {url scheme host : String} {port tail : List Char}
    (hscheme : scheme = "http" ∨ scheme = "https")
    (hhost : ∀ c ∈ host.toList, isDomainChar c = true) (hne : host ≠ "") (hport : IsPort port)
    (hurl : url.toList = scheme.toList ++ [':', '/', '/'] ++ host.toList ++ port ++ '/' :: tail) :
    (library.urlsplit url).bind UrlParts.hostname = some host := by
  obtain ⟨p, rfl, hp⟩ := exists_portChars hport
  rw [urlsplit_parts hscheme hhost hne hp hurl]
  rfl

theorem urlOf_eq (tools : TextTools) (value : String) :
    urlOf tools value = (tools.urlsplit value).bind fun parts =>
      if parts.scheme ≠ "http" ∧ parts.scheme ≠ "https" then none
      else parts.hostname.bind fun hostname =>
        if hostname = "" then none
        else (domainOf tools hostname).bind fun host =>
          some (parts.scheme ++ "://" ++ host ++ portText parts.port ++ pathText parts.path ++
            queryText parts.query) :=
  rfl

theorem urlsplit_eq (library : StandardLibrary) (raw : String) :
    library.urlsplit raw =
      if library.accepts (splitNetloc (splitScheme (cleanUrl raw)).2).1 then
        (portOf (splitNetloc (splitScheme (cleanUrl raw)).2).1).map fun port => {
          scheme := String.ofList (splitScheme (cleanUrl raw)).1
          hostname := library.hostnameOf (splitNetloc (splitScheme (cleanUrl raw)).2).1
          port := port
          path := String.ofList (before '?' (before '#' (splitNetloc (splitScheme (cleanUrl raw)).2).2))
          query := String.ofList (behind '?' (before '#' (splitNetloc (splitScheme (cleanUrl raw)).2).2)) }
      else none :=
  rfl

/-- What `urlsplit` returns. -/
theorem urlsplit_eq_some {raw : String} {parts : UrlParts} (h : library.urlsplit raw = some parts) :
    ∃ scheme netloc rest port, splitScheme (cleanUrl raw) = (scheme, rest) ∧
      (splitNetloc rest).1 = netloc ∧ portOf netloc = some port ∧ parts.port = port ∧
      parts.hostname = library.hostnameOf netloc ∧
      parts.path = String.ofList (before '?' (before '#' (splitNetloc rest).2)) := by
  rw [urlsplit_eq] at h
  split_ifs at h with haccepts
  obtain ⟨port, hport, rfl⟩ := Option.map_eq_some_iff.mp h
  exact ⟨_, _, _, port, rfl, rfl, hport, rfl, rfl, rfl⟩

theorem portOf_le {netloc : List Char} {n : ℕ} (h : portOf netloc = some (some n)) : n ≤ 65535 := by
  rw [portOf] at h
  split_ifs at h with hnone hdigits
  · exact nomatch h
  · obtain rfl := Option.some.inj (Option.some.inj h)
    exact hdigits.2

/-- The port is in range, and what follows the netloc is the path and the query. -/
theorem urlsplit_tail {raw : String} {parts : UrlParts} (h : library.urlsplit raw = some parts) :
    (∀ n, parts.port = some n → n ≤ 65535) ∧
      parts.path = String.ofList
        (before '?' (before '#' (splitNetloc (splitScheme (cleanUrl raw)).2).2)) ∧
      parts.query = String.ofList
        (behind '?' (before '#' (splitNetloc (splitScheme (cleanUrl raw)).2).2)) := by
  rw [urlsplit_eq] at h
  split_ifs at h with haccepts
  obtain ⟨port, hport, rfl⟩ := Option.map_eq_some_iff.mp h
  refine ⟨fun n hn => ?_, rfl, rfl⟩
  obtain rfl : port = some n := hn
  exact portOf_le hport

/-- The path of a URL with a host is empty or begins with a slash. -/
theorem path_of_urlsplit {raw name : String} {parts : UrlParts} (h : library.urlsplit raw = some parts)
    (hname : parts.hostname = some name) :
    parts.path = "" ∨ ∃ tail, parts.path.toList = '/' :: tail := by
  obtain ⟨scheme, netloc, rest, port, -, hnetloc, -, -, hhost, hpath⟩ := urlsplit_eq_some h
  rw [hname] at hhost
  have hlocated : ['/', '/'] <+: rest := by
    by_contra hnot
    rw [splitNetloc, if_neg hnot] at hnetloc
    rw [← hnetloc] at hhost
    exact nomatch hhost
  rw [splitNetloc, if_pos hlocated] at hpath
  dsimp only at hpath
  rw [hpath, String.toList_ofList]
  -- what follows the netloc begins with a slash, a question mark or a number sign
  cases htail : (rest.drop 2).dropWhile (!endsNetloc ·) with
  | nil => exact Or.inl rfl
  | cons c tail =>
    have hends : endsNetloc c = true := by
      simpa using Library.not_of_dropWhile_eq_cons htail
    rw [endsNetloc, decide_eq_true_iff] at hends
    simp only [List.mem_cons, List.not_mem_nil, or_false] at hends
    rcases hends with rfl | rfl | rfl
    · exact Or.inr ⟨_, rfl⟩
    · exact Or.inl rfl
    · exact Or.inl rfl

/-- A URL in normal form, with the parts it is made of. -/
theorem urlOf_eq_some {raw url : String} (h : urlOf library.textTools raw = some url) :
    ∃ parts name host port tail, library.urlsplit raw = some parts ∧ parts.hostname = some name ∧
      domainOf library.textTools name = some host ∧
      (parts.scheme = "http" ∨ parts.scheme = "https") ∧ IsPort port ∧
      url.toList = parts.scheme.toList ++ [':', '/', '/'] ++ host.toList ++ port ++ '/' :: tail := by
  rw [urlOf_eq] at h
  obtain ⟨parts, hparts, h⟩ := Option.bind_eq_some_iff.mp h
  split_ifs at h with hscheme
  obtain ⟨name, hname, h⟩ := Option.bind_eq_some_iff.mp h
  split_ifs at h with hempty
  obtain ⟨host, hhost, h⟩ := Option.bind_eq_some_iff.mp h
  obtain rfl := Option.some.inj h
  have hpath := path_of_urlsplit hparts hname
  have hport := (urlsplit_tail hparts).1
  have hscheme : parts.scheme = "http" ∨ parts.scheme = "https" := by
    by_contra hneither
    exact hscheme (not_or.mp hneither)
  have hslash : ∃ tail, (pathText parts.path).toList = '/' :: tail := by
    rw [pathText]
    split_ifs with hnone
    · exact ⟨[], rfl⟩
    · exact hpath.resolve_left hnone
  obtain ⟨tail, htail⟩ := hslash
  refine ⟨parts, name, host, (portText parts.port).toList, tail ++ (queryText parts.query).toList, hparts,
    hname, hhost, hscheme, isPort_portText hport, ?_⟩
  rw [String.toList_append, String.toList_append, htail, String.toList_append, String.toList_append,
    String.toList_append]
  simp only [List.append_assoc, List.cons_append]
  rfl

/-- **The host of a URL in normal form**: it is found again by splitting, and it stands in the URL as it was
written, if that was a token. -/
theorem host_of_urlOf {raw url : String} (h : urlOf library.textTools raw = some url) :
    ∃ host, (library.urlsplit url).bind UrlParts.hostname = some host ∧ host ≠ "" ∧
      (∀ c ∈ host.toList, isDomainChar c = true) ∧
      ((∀ c ∈ raw.toList, isCandidateChar c = true) →
        host.toList <:+: raw.toList.map Char.toLower) := by
  obtain ⟨parts, name, host, port, tail, hparts, hname, hhost, hscheme, hport, hurl⟩ := urlOf_eq_some h
  have hne := (domainOf_eq_some hhost).2.1
  have hchars := isDomainChar_of_domainOf hhost
  refine ⟨host, urlsplit_canonical hscheme hchars hne hport hurl, hne, hchars, fun hraw => ?_⟩
  obtain ⟨scheme, netloc, rest, _, hsplit, hnetloc, -, -, hnameOf, -⟩ := urlsplit_eq_some hparts
  have hstands : netloc <:+: raw.toList := by
    have hrest := splitScheme_within (cleanUrl raw)
    rw [hsplit, cleanUrl_of_candidates hraw] at hrest
    exact hnetloc ▸ (splitNetloc_within rest).trans hrest
  have hascii : ∀ c ∈ netloc, isAscii c = true :=
    fun c hc => isAscii_of_isCandidateChar (hraw c (hstands.subset hc))
  obtain ⟨hnameAscii, hlower⟩ := hostnameOf_ascii hascii (hnameOf.symm.trans hname)
  rw [toList_domainOf_ascii hnameAscii hhost]
  have hfront : (name.toList.rdropWhile (· = '.')).map Char.toLower <:+: name.toList.map Char.toLower :=
    ((List.rdropWhile_prefix _ _).map Char.toLower).isInfix
  rw [hlower] at hfront
  exact hfront.trans (((hostInfo_within netloc).trans hstands).map Char.toLower)

end StandardLibrary

end Intelligence
end Scam2Market
