import Scam2Market.Ingestion.SocialText
import Scam2Market.Intelligence.UrlIdentity

/-!
# The candidates of a text that has a value

A post has a value, with white space and punctuation around it.

* `surrounded`: the text of the post; its URLs are those that the parser finds in it.
* `spelled_iff`: the value is a token of the text when only dots are attached to it.
* `urls_surrounded`: a URL that is a token is found by the parser, with what is attached to it.
* `mem_matchCandidates_url`, `mem_matchCandidates_scanned`, ...: what the candidates of one type are.
-/

namespace Scam2Market
namespace Intelligence

open Ingestion (SocialParser UnicodeData groups isUrlChar trimUrl)
open Library (scan)

/-- White space and punctuation: no letter or digit of ASCII, and no slash. -/
def isSurrounding (c : Char) : Bool :=
  !isAlnum c && c ≠ '/'

/-- The text of a post that has a value, with what is around it. -/
def surrounded (front : List Char) (value : String) (back : List Char) : String :=
  String.ofList (front ++ value.toList ++ back)

/-- Of the punctuation around a value, only dots are part of its token. -/
def DotsAttached (front back : List Char) : Prop :=
  ∀ c ∈ front.rtakeWhile isCandidateChar ++ back.takeWhile isCandidateChar, c = '.'

/-- `[A-Za-z0-9:@._/%?=&+-]+`. -/
def IsToken (value : String) : Prop :=
  value ≠ "" ∧ ∀ c ∈ value.toList, isCandidateChar c = true

instance (value : String) : Decidable (IsToken value) :=
  inferInstanceAs (Decidable (_ ∧ _))

/-- The token of a value that is one, with what is attached to it, stripped. -/
def around (front : List Char) (value : String) (back : List Char) : String :=
  String.ofList (Library.trim isTrimmed
    (front.rtakeWhile isCandidateChar ++ value.toList ++ back.takeWhile isCandidateChar))

/-- The URL that the parser finds where a value stands that is a token. -/
def cutUrl (value : String) (back : List Char) : String :=
  String.ofList (trimUrl (value.toList ++ back.takeWhile isUrlChar))

/-- A token of the text, stripped, is the value, whatever the case of its letters. -/
def Spelled (text value : String) : Prop :=
  ∃ token ∈ cleanTokens text, token.toList.map Char.toLower = value.toList

/-- The URLs of a text, and its tokens that begin like one. -/
def urlsOf (parser : SocialParser) (text : String) : List String :=
  parser.urls text ++ (cleanTokens text).filter StartsHttp

/-- No character that is not ASCII matches an `h` or a slash under `re.IGNORECASE`. -/
def SchemeIsAscii (u : UnicodeData) : Prop :=
  ∀ c, isAscii c = false → u.sameLetter 'h' c = false ∧ u.sameLetter '/' c = false

/-! ## Characters -/

theorem isAlnum_toLower {c : Char} (hc : isAscii c = true) : isAlnum c.toLower = isAlnum c :=
  of_isAscii (P := fun c => isAlnum c.toLower = isAlnum c) (by decide) hc

theorem isCandidateChar_toLower {c : Char} (hc : isAscii c = true) :
    isCandidateChar c.toLower = isCandidateChar c :=
  of_isAscii (P := fun c => isCandidateChar c.toLower = isCandidateChar c) (by decide) hc

theorem isCandidateChar_of_isAlnum {c : Char} (hc : isAlnum c = true) : isCandidateChar c = true := by
  rw [isCandidateChar, hc, Bool.true_or]

theorem isTrimmed_of_isAlnum {c : Char} (hc : isAlnum c = true) : isTrimmed c = false :=
  of_isAscii (P := fun c => isAlnum c = true → isTrimmed c = false) (by decide) (isAscii_of_isAlnum hc) hc

theorem eq_dot_of_isTrimmed {c : Char} (hc : isCandidateChar c = true) (htrimmed : isTrimmed c = true) :
    c = '.' :=
  of_isAscii (P := fun c => isCandidateChar c = true → isTrimmed c = true → c = '.') (by decide)
    (isAscii_of_isCandidateChar hc) hc htrimmed

theorem isUrlChar_of_isCandidateChar {c : Char} (hc : isCandidateChar c = true) : isUrlChar c = true := by
  have hangle : c ∉ ['<', '>', '(', ')'] :=
    of_isAscii (P := fun c => isCandidateChar c = true → c ∉ ['<', '>', '(', ')']) (by decide)
      (isAscii_of_isCandidateChar hc) hc
  rw [isUrlChar, StandardLibrary.not_isSpace_of_isCandidateChar hc, decide_eq_true hangle]
  rfl

theorem isAlnum_of_isSurrounding {c : Char} (hc : isSurrounding c = true) : isAlnum c = false ∧ c ≠ '/' := by
  rw [isSurrounding, Bool.and_eq_true, Bool.not_eq_true', decide_eq_true_eq] at hc
  exact hc

/-! ## The token of a value -/

section Tokens

variable {front back w : List Char} {text value token : String}

theorem mem_cleanTokens :
    token ∈ cleanTokens text ↔ ∃ piece ∈ text.toList.splitOnP fun c => !isCandidateChar c,
      piece ≠ [] ∧ token = String.ofList (Library.trim isTrimmed piece) := by
  have hstrip (piece : List Char) :
      stripWhere isTrimmed (String.ofList piece) = String.ofList (Library.trim isTrimmed piece) := by
    rw [stripWhere, String.toList_ofList]
    rfl
  simp only [cleanTokens, List.map_map, List.mem_map, List.mem_filter, decide_eq_true_eq, and_assoc,
    Function.comp_apply, hstrip, eq_comm (b := token)]

/-- One token of the text is the one of the value; the others stand before it or behind it. -/
theorem cleanTokens_surrounded (front back : List Char) (hvalue : IsToken value) :
    around front value back ∈ cleanTokens (surrounded front value back) ∧
      ∀ token ∈ cleanTokens (surrounded front value back), token = around front value back ∨
        token.toList <:+: front ∨ token.toList <:+: back := by
  obtain ⟨before, behind, hpieces, hbefore, hbehind⟩ := Library.splitOnP_surround front back hvalue.2
  have hstands {piece part : List Char} (h : piece <:+: part) :
      (String.ofList (Library.trim isTrimmed piece)).toList <:+: part := by
    rw [String.toList_ofList]
    exact (Library.trim_within isTrimmed piece).trans h
  simp only [mem_cleanTokens, surrounded, String.toList_ofList, hpieces]
  constructor
  · refine ⟨_, List.mem_append_right _ List.mem_cons_self, ?_, rfl⟩
    simp only [ne_eq, List.append_eq_nil_iff, String.toList_eq_nil_iff, hvalue.1, and_false, false_and,
      not_false_eq_true]
  · rintro token ⟨piece, hpiece, -, rfl⟩
    rcases List.mem_append.mp hpiece with hpiece | hpiece
    · exact Or.inr (Or.inl (hstands (hbefore piece hpiece)))
    · rcases List.mem_cons.mp hpiece with rfl | hpiece
      · exact Or.inl rfl
      · exact Or.inr (Or.inr (hstands (hbehind piece hpiece)))

/-- No letter or digit stands in the surroundings. -/
theorem isAlnum_of_stands (hfront : ∀ c ∈ front, isSurrounding c = true)
    (hback : ∀ c ∈ back, isSurrounding c = true) {part : List Char}
    (h : part <:+: front ∨ part <:+: back) : ∀ c ∈ part, isAlnum c = false ∧ c ≠ '/' := by
  intro c hc
  rcases h with h | h
  · exact isAlnum_of_isSurrounding (hfront c (h.subset hc))
  · exact isAlnum_of_isSurrounding (hback c (h.subset hc))

/-- A text of token characters that begins and ends with a letter or a digit. -/
structure IsWord (text : List Char) : Prop where
  chars : ∀ c ∈ text, isCandidateChar c = true
  ne_nil : text ≠ []
  head : ∀ c, text.head? = some c → isAlnum c = true
  last : ∀ c, text.getLast? = some c → isAlnum c = true

theorem IsWord.of_map_toLower (hascii : ∀ c ∈ w, isAscii c = true) (h : IsWord (w.map Char.toLower)) :
    IsWord w := by
  refine ⟨fun c hc => ?_, fun hnil => h.ne_nil (by rw [hnil]; rfl), fun c hc => ?_, fun c hc => ?_⟩
  · rw [← isCandidateChar_toLower (hascii c hc)]
    exact h.chars _ (List.mem_map_of_mem hc)
  · rw [← isAlnum_toLower (hascii c (List.mem_of_mem_head? hc))]
    exact h.head _ (by rw [List.head?_map, hc]; rfl)
  · rw [← isAlnum_toLower (hascii c (List.mem_of_getLast? hc))]
    exact h.last _ (by rw [List.getLast?_map, hc]; rfl)

/-- A token in which the letters of a word stand has a letter or a digit. -/
theorem IsWord.exists_isAlnum {part : List Char} (h : IsWord w) (hpart : ∀ c ∈ part, isAscii c = true)
    (hlower : part.map Char.toLower = w) : ∃ c ∈ part, isAlnum c = true := by
  obtain ⟨c, rest, hw⟩ := List.exists_cons_of_ne_nil h.ne_nil
  have hc : c ∈ part.map Char.toLower := by
    rw [hlower, hw]
    exact List.mem_cons_self
  obtain ⟨d, hd, rfl⟩ := List.mem_map.mp hc
  refine ⟨d, hd, ?_⟩
  rw [← isAlnum_toLower (hpart d hd)]
  exact h.head _ (by rw [hw]; rfl)

theorem eq_dot_of_trimmed {l : List Char} (hl : ∀ c ∈ l, isCandidateChar c = true) :
    (∀ c ∈ l, isTrimmed c = true) ↔ ∀ c ∈ l, c = '.' := by
  constructor
  · exact fun h c hc => eq_dot_of_isTrimmed (hl c hc) (h c hc)
  · intro h c hc
    rw [h c hc]
    rfl

/-- **A value is a token of its text** exactly when only dots are attached to it. -/
theorem spelled_iff (hfront : ∀ c ∈ front, isSurrounding c = true)
    (hback : ∀ c ∈ back, isSurrounding c = true) {normal : String}
    (hascii : ∀ c ∈ value.toList, isAscii c = true)
    (hnormal : normal.toList = (value.toList.rdropWhile (· = '.')).map Char.toLower)
    (hword : IsWord normal.toList) :
    Spelled (surrounded front value back) normal ↔ DotsAttached front back := by
  have hparts := List.rdropWhile_append_rtakeWhile (p := fun c => decide (c = '.')) (l := value.toList)
  have hdots : ∀ c ∈ value.toList.rtakeWhile (fun c => decide (c = '.')), c = '.' := fun _ hc =>
    of_decide_eq_true (List.mem_rtakeWhile_imp (p := fun c => decide (c = '.')) hc)
  generalize value.toList.rdropWhile (· = '.') = w at hparts hnormal
  generalize value.toList.rtakeWhile (· = '.') = dots at hparts hdots
  have hw : IsWord w := by
    refine IsWord.of_map_toLower (fun c hc => hascii c ?_) (hnormal ▸ hword)
    rw [← hparts]
    exact List.mem_append_left _ hc
  have hvalue : ∀ c ∈ value.toList, isCandidateChar c = true := by
    intro c hc
    rw [← hparts] at hc
    rcases List.mem_append.mp hc with hc | hc
    · exact hw.chars c hc
    · rw [hdots c hc]
      rfl
  have hne : value ≠ "" := by
    rintro rfl
    exact hw.ne_nil (List.append_eq_nil_iff.mp hparts).1
  -- each side of the token is stripped for itself
  have haround : (around front value back).toList =
      (front.rtakeWhile isCandidateChar).dropWhile isTrimmed ++ w ++
        (dots ++ back.takeWhile isCandidateChar).rdropWhile isTrimmed := by
    rw [around, String.toList_ofList, ← hparts, ← List.append_assoc, List.append_assoc _ dots]
    exact Library.trim_append hw.ne_nil (fun c hc => isTrimmed_of_isAlnum (hw.head c hc))
      (fun c hc => isTrimmed_of_isAlnum (hw.last c hc)) _ _
  have hfrontChars : ∀ c ∈ front.rtakeWhile isCandidateChar, isCandidateChar c = true := fun _ hc =>
    List.mem_rtakeWhile_imp hc
  have hbackChars : ∀ c ∈ dots ++ back.takeWhile isCandidateChar, isCandidateChar c = true := by
    intro c hc
    rcases List.mem_append.mp hc with hc | hc
    · rw [hdots c hc]
      rfl
    · exact List.mem_takeWhile_imp hc
  have hattached : DotsAttached front back ↔ (front.rtakeWhile isCandidateChar).dropWhile isTrimmed = [] ∧
      (dots ++ back.takeWhile isCandidateChar).rdropWhile isTrimmed = [] := by
    rw [List.dropWhile_eq_nil_iff, List.rdropWhile_eq_nil_iff, eq_dot_of_trimmed hfrontChars,
      eq_dot_of_trimmed hbackChars, DotsAttached, List.forall_mem_append, List.forall_mem_append]
    exact and_congr_right fun _ => (and_iff_right hdots).symm
  obtain ⟨hmem, htokens⟩ := cleanTokens_surrounded front back ⟨hne, hvalue⟩
  constructor
  · rintro ⟨token, htoken, hlower⟩
    rcases htokens token htoken with rfl | hstands
    · have hlength := congrArg List.length (hlower.trans hnormal)
      rw [haround] at hlength
      simp only [List.length_map, List.length_append] at hlength
      rw [hattached, ← List.length_eq_zero_iff, ← List.length_eq_zero_iff]
      omega
    · have htokenAscii : ∀ c ∈ token.toList, isAscii c = true := fun c hc =>
        isAscii_of_isCandidateChar ((cleanToken_spec htoken).2 c hc)
      obtain ⟨c, hc, halnum⟩ := hword.exists_isAlnum htokenAscii hlower
      rw [(isAlnum_of_stands hfront hback hstands c hc).1] at halnum
      exact nomatch halnum
  · intro hdotted
    obtain ⟨hleft, hright⟩ := hattached.mp hdotted
    refine ⟨_, hmem, ?_⟩
    rw [haround, hleft, hright, List.nil_append, List.append_nil, hnormal]

end Tokens

/-! ## The URLs of the text -/

section Urls

variable {u : UnicodeData} {parser : SocialParser} {front back text literal : List Char} {n : ℕ}

/-- What matches an `h`, or a slash, under `re.IGNORECASE`. -/
theorem ignoringCase_scheme (hu : SchemeIsAscii u) {c : Char} :
    (u.ignoringCase 'h' c = true → isAlnum c = true) ∧ (u.ignoringCase '/' c = true → c = '/') := by
  cases hc : isAscii c with
  | true =>
    have hletter : ('h'.toLower = c.toLower → isAlnum c = true) ∧ ('/'.toLower = c.toLower → c = '/') :=
      of_isAscii (P := fun c => ('h'.toLower = c.toLower → isAlnum c = true) ∧
        ('/'.toLower = c.toLower → c = '/')) (by decide) hc
    rw [UnicodeData.ignoringCase, UnicodeData.ignoringCase, if_pos (by rw [hc]; rfl),
      if_pos (by rw [hc]; rfl), decide_eq_true_eq, decide_eq_true_eq]
    exact hletter
  | false =>
    rw [UnicodeData.ignoringCase, UnicodeData.ignoringCase, if_neg (by rw [hc]; decide),
      if_neg (by rw [hc]; decide), (hu c hc).1, (hu c hc).2]
    exact ⟨nofun, nofun⟩

theorem beginsWith_cons {c : Char} (h : u.beginsWith (c :: literal) text = true) :
    ∃ d rest, text = d :: rest ∧ u.ignoringCase c d = true ∧ u.beginsWith literal rest = true := by
  cases text with
  | nil => exact nomatch h
  | cons d rest =>
    rw [UnicodeData.beginsWith, Bool.and_eq_true] at h
    exact ⟨d, rest, rfl, h⟩

/-- Each character of the literal matches one of the text. -/
theorem exists_of_beginsWith (h : u.beginsWith literal text = true) {c : Char} (hc : c ∈ literal) :
    ∃ d ∈ text, u.ignoringCase c d = true := by
  induction literal generalizing text with
  | nil => exact absurd hc List.not_mem_nil
  | cons b literal ih =>
    obtain ⟨d, rest, rfl, hd, hrest⟩ := beginsWith_cons h
    rcases List.mem_cons.mp hc with rfl | hc
    · exact ⟨d, List.mem_cons_self, hd⟩
    · obtain ⟨e, he, hmatch⟩ := ih hrest hc
      exact ⟨e, List.mem_cons_of_mem d he, hmatch⟩

theorem beginsWith_of_toLower {part : List Char} (hliteral : ∀ c ∈ literal, isAscii c = true)
    (hpart : ∀ c ∈ part, isAscii c = true) (hlower : part.map Char.toLower = literal.map Char.toLower)
    (rest : List Char) : u.beginsWith literal (part ++ rest) = true := by
  induction literal generalizing part with
  | nil => rfl
  | cons c literal ih =>
    cases part with
    | nil => exact nomatch hlower
    | cons d part =>
      rw [List.map_cons, List.map_cons] at hlower
      obtain ⟨hd, hlower⟩ := List.cons.inj hlower
      obtain ⟨hc, hliteral⟩ := List.forall_mem_cons.mp hliteral
      obtain ⟨hdAscii, hpart⟩ := List.forall_mem_cons.mp hpart
      rw [List.cons_append, UnicodeData.beginsWith, ih hliteral hpart hlower, Bool.and_true,
        UnicodeData.ignoringCase, if_pos (by rw [hc, hdAscii]; rfl), decide_eq_true_eq]
      exact hd.symm

/-- A URL begins with an `h`, and has a slash. -/
theorem schemeLength_eq_some (hu : SchemeIsAscii u) (h : u.schemeLength text = some n) :
    (∃ c rest, text = c :: rest ∧ isAlnum c = true) ∧ '/' ∈ text := by
  have hbegins : ∃ literal, '/' ∈ literal ∧ u.beginsWith ('h' :: literal) text = true := by
    rw [UnicodeData.schemeLength] at h
    split_ifs at h with hhttps hhttp
    · exact ⟨"ttps://".toList, by decide, hhttps⟩
    · exact ⟨"ttp://".toList, by decide, hhttp⟩
  obtain ⟨literal, hslash, hbegins⟩ := hbegins
  obtain ⟨c, rest, htext, hc, -⟩ := beginsWith_cons hbegins
  obtain ⟨d, hd, hmatch⟩ := exists_of_beginsWith hbegins (List.mem_cons_of_mem 'h' hslash)
  refine ⟨⟨c, rest, htext, (ignoringCase_scheme hu).1 hc⟩, ?_⟩
  rw [← (ignoringCase_scheme hu).2 hmatch]
  exact hd

theorem urlAt_eq_none (h : u.schemeLength text = none) (prev : Option Char) : u.urlAt prev text = none := by
  rw [UnicodeData.urlAt, h]

/-- No URL begins in the surroundings. -/
theorem urlAt_surrounding (hu : SchemeIsAscii u) {c : Char} (hc : isSurrounding c = true)
    (rest : List Char) (prev : Option Char) : u.urlAt prev (c :: rest) = none := by
  refine urlAt_eq_none (Option.eq_none_iff_forall_ne_some.mpr fun n hn => ?_) prev
  obtain ⟨⟨d, rest', heq, halnum⟩, -⟩ := schemeLength_eq_some hu hn
  rw [← (List.cons.inj heq).1, (isAlnum_of_isSurrounding hc).1] at halnum
  exact nomatch halnum

/-- A text without slashes has no URLs. -/
theorem urls_eq_nil (hu : SchemeIsAscii parser.unicode) {text : String} (h : '/' ∉ text.toList) :
    parser.urls text = [] := by
  have hscan : scan parser.unicode.urlAt text.toList = [] := by
    refine List.eq_nil_iff_forall_not_mem.mpr fun found hfound => ?_
    obtain ⟨done, todo, hsplit, -, -, hmatch⟩ := Library.mem_scanFrom (i := found.1) (n := found.2) hfound
    cases hscheme : parser.unicode.schemeLength todo with
    | none =>
      rw [urlAt_eq_none hscheme] at hmatch
      exact nomatch hmatch
    | some n =>
      refine h ?_
      rw [hsplit]
      exact List.mem_append_right _ (schemeLength_eq_some hu hscheme).2
  rw [SocialParser.urls, hscan]
  rfl

/-- A URL of token characters: its scheme, in either case, and what follows it. -/
theorem written_of_urlOf {library : StandardLibrary} {value url : String}
    (hvalue : ∀ c ∈ value.toList, isCandidateChar c = true) (h : urlOf library.textTools value = some url) :
    ∃ scheme c tail, value.toList = scheme ++ [':', '/', '/'] ++ c :: tail ∧
      (scheme.map Char.toLower = "http".toList ∨ scheme.map Char.toLower = "https".toList) := by
  obtain ⟨parts, name, -, -, -, hparts, hname, -, hscheme, -⟩ := StandardLibrary.urlOf_eq_some h
  rw [StandardLibrary.urlsplit_eq, cleanUrl_of_candidates hvalue] at hparts
  split_ifs at hparts
  obtain ⟨port, -, rfl⟩ := Option.map_eq_some_iff.mp hparts
  have hlower : (splitScheme value.toList).1 = "http".toList ∨
      (splitScheme value.toList).1 = "https".toList := by
    rw [← String.toList_ofList (l := (splitScheme value.toList).1)]
    exact hscheme.imp (congrArg String.toList) (congrArg String.toList)
  -- a URL without a scheme has no scheme to compare
  have hcolon : ':' ∈ value.toList ∧ (before ':' value.toList).head?.any Char.isAlpha = true ∧
      (before ':' value.toList).all isSchemeChar = true := by
    by_contra hnot
    rw [splitScheme, if_neg hnot] at hlower
    rcases hlower with hlower | hlower <;> cases hlower
  rw [splitScheme, if_pos hcolon] at hlower hname
  dsimp only at hlower hname
  have hlocated : ['/', '/'] <+: behind ':' value.toList := by
    by_contra hnot
    rw [splitNetloc, if_neg hnot] at hname
    cases hname
  obtain ⟨rest, hrest⟩ := hlocated
  cases rest with
  | nil =>
    rw [← hrest] at hname
    cases hname
  | cons c tail =>
    refine ⟨before ':' value.toList, c, tail, ?_, hlower⟩
    conv_lhs => rw [← before_append_behind hcolon.1, ← hrest]
    simp only [List.append_assoc, List.cons_append, List.nil_append]

/-- The scheme of a URL of token characters is found, in either case. -/
theorem schemeLength_of_written {scheme : List Char} (hascii : ∀ c ∈ scheme, isAscii c = true)
    (hscheme : scheme.map Char.toLower = "http".toList ∨ scheme.map Char.toLower = "https".toList)
    (rest : List Char) :
    u.schemeLength (scheme ++ [':', '/', '/'] ++ rest) = some (scheme.length + 3) := by
  have hbegins (literal : List Char) (hliteral : ∀ c ∈ literal, isAscii c = true)
      (hlower : scheme.map Char.toLower = literal.map Char.toLower) :
      u.beginsWith (literal ++ [':', '/', '/']) (scheme ++ [':', '/', '/'] ++ rest) = true := by
    have hmark : ∀ c ∈ [':', '/', '/'], isAscii c = true := List.all_eq_true.mp rfl
    refine beginsWith_of_toLower (List.forall_mem_append.mpr ⟨hliteral, hmark⟩)
      (List.forall_mem_append.mpr ⟨hascii, hmark⟩) ?_ rest
    rw [List.map_append, List.map_append, hlower]
  rw [UnicodeData.schemeLength]
  rcases hscheme with hlower | hlower
  · have hhttps : u.beginsWith "https://".toList (scheme ++ [':', '/', '/'] ++ rest) = false := by
      obtain ⟨a, b, c, d, rfl⟩ : ∃ a b c d, scheme = [a, b, c, d] := by
        rw [← List.length_eq_four, ← List.length_map Char.toLower, hlower]
        rfl
      show (_ && (_ && (_ && (_ && (false && _))))) = false
      simp only [Bool.false_and, Bool.and_false]
    have hhttp : u.beginsWith "http://".toList (scheme ++ [':', '/', '/'] ++ rest) = true :=
      hbegins "http".toList (List.all_eq_true.mp rfl) hlower
    have hfour : scheme.length = 4 := by
      rw [← List.length_map Char.toLower, hlower]
      rfl
    rw [hhttps, if_neg (by decide), if_pos hhttp, hfour]
  · have hhttps : u.beginsWith "https://".toList (scheme ++ [':', '/', '/'] ++ rest) = true :=
      hbegins "https".toList (List.all_eq_true.mp rfl) hlower
    have hfive : scheme.length = 5 := by
      rw [← List.length_map Char.toLower, hlower]
      rfl
    rw [if_pos hhttps, hfive]

/-- **A URL of token characters** is the one URL of its text, with what is attached to it. -/
theorem urls_surrounded (hu : SchemeIsAscii parser.unicode) (hfront : ∀ c ∈ front, isSurrounding c = true)
    (hback : ∀ c ∈ back, isSurrounding c = true) {library : StandardLibrary} {value url : String}
    (hvalue : ∀ c ∈ value.toList, isCandidateChar c = true) (h : urlOf library.textTools value = some url) :
    parser.urls (surrounded front value back) = [cutUrl value back] := by
  obtain ⟨scheme, c, tail, hwritten, hscheme⟩ := written_of_urlOf hvalue h
  have hurlChars : ∀ d ∈ c :: tail, isUrlChar d = true := by
    intro d hd
    refine isUrlChar_of_isCandidateChar (hvalue d ?_)
    rw [hwritten]
    exact List.mem_append_right _ hd
  have hmatch (prev : Option Char) : parser.unicode.urlAt prev (value.toList ++ back) =
      some (value.toList ++ back.takeWhile isUrlChar).length := by
    have hbody : ((value.toList ++ back).drop (scheme.length + 3)).takeWhile isUrlChar =
        c :: tail ++ back.takeWhile isUrlChar := by
      have hdrop : (value.toList ++ back).drop (scheme.length + 3) = c :: tail ++ back := by
        rw [hwritten, List.append_assoc]
        exact List.drop_left' (by rw [List.length_append]; rfl)
      rw [hdrop, List.takeWhile_append_of_pos hurlChars]
    have hfound : parser.unicode.schemeLength (value.toList ++ back) = some (scheme.length + 3) := by
      rw [hwritten, List.append_assoc]
      refine schemeLength_of_written (fun d hd => isAscii_of_isCandidateChar (hvalue d ?_)) hscheme _
      rw [hwritten]
      exact List.mem_append_left _ (List.mem_append_left _ hd)
    rw [UnicodeData.urlAt, hfound]
    dsimp only
    rw [hbody, if_neg (by simp), hwritten]
    simp only [List.length_append, List.length_cons, List.length_nil]
    congr 1
    omega
  have hne : value.toList ++ back ≠ [] := by
    rw [hwritten]
    simp
  have hscan : scan parser.unicode.urlAt (front ++ (value.toList ++ back)) =
      [(front.length, (value.toList ++ back.takeWhile isUrlChar).length)] := by
    refine Library.scan_eq_singleton hne ?_ (hmatch _) ?_
    · intro done todo hsplit htodo
      obtain ⟨d, rest, rfl⟩ := List.exists_cons_of_ne_nil htodo
      refine urlAt_surrounding hu (hfront d ?_) _ _
      rw [hsplit]
      exact List.mem_append_right _ List.mem_cons_self
    · -- what is left behind the match is surroundings
      intro done todo prev hsplit hlong
      cases todo with
      | nil => rfl
      | cons d rest =>
        have hlength := congrArg List.length hsplit
        simp only [List.length_append] at hlength hlong
        have hwhole : d :: rest <:+ value.toList ++ back := by
          rw [hsplit]
          exact List.suffix_append _ _
        have hrest : d :: rest <:+ back :=
          List.suffix_of_suffix_length_le hwhole (List.suffix_append _ _) (by omega)
        exact urlAt_surrounding hu (hback d (hrest.subset List.mem_cons_self)) rest prev
  have htext : (surrounded front value back).toList = front ++ (value.toList ++ back) := by
    rw [surrounded, String.toList_ofList, List.append_assoc]
  have hgroup : ((front ++ (value.toList ++ back)).drop front.length).take
      (value.toList ++ back.takeWhile isUrlChar).length = value.toList ++ back.takeWhile isUrlChar := by
    rw [List.drop_left]
    refine (List.prefix_iff_eq_take.mp ?_).symm
    exact (List.prefix_append_right_inj _).mpr (List.takeWhile_prefix _)
  rw [SocialParser.urls, htext, hscan, groups, List.map_singleton, hgroup, List.map_singleton]
  rfl

end Urls

/-! ## The candidates of one type -/

section Candidates

variable {tools : TextTools} {library : StandardLibrary} {parser : SocialParser}
  {item : NormalizedIndicator} {text token : String} {urls : List String}

theorem valueOf_of_normalizeIndicator {rawType rawValue : String}
    (h : normalizeIndicator tools rawType rawValue = some item) :
    valueOf tools item.type (stripWhere isSpace rawValue) = some item.value := by
  obtain ⟨kind, -, h⟩ := Option.bind_eq_some_iff.mp h
  obtain ⟨value, hvalue, h⟩ := Option.bind_eq_some_iff.mp h
  obtain rfl := Option.some.inj h
  exact hvalue

theorem type_of_urlCandidates {raw : String} (h : item ∈ urlCandidates tools raw) :
    item.type = .url ∨ item.type = .domain := by
  obtain ⟨url, -, rfl | ⟨host, -, -, rfl⟩⟩ := mem_urlCandidates.mp h
  · exact Or.inl rfl
  · exact Or.inr rfl

theorem mem_urlCandidates_of_url (hurl : item.type = .url) {raw : String} :
    item ∈ urlCandidates tools raw ↔ urlOf tools raw = some item.value := by
  rw [mem_urlCandidates]
  constructor
  · rintro ⟨url, hread, rfl | ⟨host, -, -, rfl⟩⟩
    · exact hread
    · exact nomatch hurl
  · exact fun hread => ⟨item.value, hread, Or.inl (by rw [← hurl])⟩

/-- What a token is read as, when it is read as an address or a hash. -/
theorem scanned_iff (htoken : ∀ c ∈ token.toList, isCandidateChar c = true) :
    (∃ name ∈ scannedKinds.map Prod.fst, normalizeIndicator library.textTools name token = some item) ↔
      item.type ∈ scannedKinds.map Prod.snd ∧
        valueOf library.textTools item.type token = some item.value := by
  constructor
  · rintro ⟨name, hname, h⟩
    obtain ⟨⟨name, kind⟩, hkind, rfl⟩ := List.mem_map.mp hname
    rw [StandardLibrary.normalizeIndicator_token htoken hkind] at h
    obtain ⟨value, hvalue, rfl⟩ := Option.map_eq_some_iff.mp h
    exact ⟨List.mem_map_of_mem hkind, hvalue⟩
  · rintro ⟨hkind, hvalue⟩
    obtain ⟨⟨name, kind⟩, hmem, hkind⟩ := List.mem_map.mp hkind
    obtain rfl : kind = item.type := hkind
    refine ⟨name, List.mem_map_of_mem hmem, ?_⟩
    rw [StandardLibrary.normalizeIndicator_token htoken hmem, hvalue]
    rfl

/-- What the candidates are that are no URLs and no domains. -/
theorem mem_matchCandidates_scanned (hurl : item.type ≠ .url) (hdomain : item.type ≠ .domain) :
    item ∈ matchCandidates library.textTools text urls ↔ item.type ∈ scannedKinds.map Prod.snd ∧
      ∃ token ∈ cleanTokens text, valueOf library.textTools item.type token = some item.value := by
  have hnot {raw : String} : item ∉ urlCandidates library.textTools raw := fun h =>
    (type_of_urlCandidates h).elim hurl hdomain
  rw [mem_matchCandidates]
  constructor
  · rintro (⟨raw, -, h⟩ | ⟨token, htoken, ⟨-, h⟩ | ⟨-, -, domain, -, rfl⟩ | h⟩)
    · exact absurd h hnot
    · exact absurd h hnot
    · exact absurd rfl hdomain
    · obtain ⟨hkind, hvalue⟩ := (scanned_iff (cleanToken_spec htoken).2).mp h
      exact ⟨hkind, token, htoken, hvalue⟩
  · rintro ⟨hkind, token, htoken, hvalue⟩
    exact Or.inr ⟨token, htoken, Or.inr (Or.inr ((scanned_iff (cleanToken_spec htoken).2).mpr ⟨hkind, hvalue⟩))⟩

/-- What the candidates are that are URLs. -/
theorem mem_matchCandidates_url (hurl : item.type = .url) :
    item ∈ matchCandidates library.textTools text (parser.urls text) ↔
      ∃ raw ∈ urlsOf parser text, urlOf library.textTools raw = some item.value := by
  simp only [mem_matchCandidates, mem_urlCandidates_of_url hurl, urlsOf, List.mem_append, List.mem_filter,
    decide_eq_true_eq, or_and_right, exists_or]
  refine or_congr_right (exists_congr fun token => ?_)
  rw [and_assoc]
  refine and_congr_right fun htoken => or_iff_left ?_
  rintro (⟨-, -, domain, -, rfl⟩ | h)
  · exact nomatch hurl
  · have hkind := ((scanned_iff (cleanToken_spec htoken).2).mp h).1
    rw [hurl] at hkind
    exact absurd hkind (by decide)

/-- What the candidates are that are domains, in a text without slashes. -/
theorem mem_matchCandidates_domain (hu : SchemeIsAscii parser.unicode) (hdomain : item.type = .domain)
    (hslash : '/' ∉ text.toList) :
    item ∈ matchCandidates library.textTools text (parser.urls text) ↔
      ∃ token ∈ cleanTokens text, '.' ∈ token.toList ∧
        domainOf library.textTools token = some item.value := by
  rw [mem_matchCandidates, urls_eq_nil hu hslash]
  have hhttp {token : String} (htoken : token ∈ cleanTokens text) : ¬ StartsHttp token := by
    intro h
    have hmem : '/' ∈ token.toList :=
      h.elim (fun h => h.subset (by decide)) (fun h => h.subset (by decide))
    exact hslash ((cleanToken_spec htoken).1.subset hmem)
  constructor
  · rintro (⟨raw, hraw, -⟩ | ⟨token, htoken, ⟨h, -⟩ | ⟨-, hdot, domain, hread, rfl⟩ | h⟩)
    · exact absurd hraw List.not_mem_nil
    · exact absurd h (hhttp htoken)
    · exact ⟨token, htoken, hdot, hread⟩
    · have hkind := ((scanned_iff (cleanToken_spec htoken).2).mp h).1
      rw [hdomain] at hkind
      exact absurd hkind (by decide)
  · rintro ⟨token, htoken, hdot, hread⟩
    refine Or.inr ⟨token, htoken, Or.inr (Or.inl ⟨hhttp htoken, hdot, item.value, hread, ?_⟩)⟩
    rw [← hdomain]

end Candidates

end Intelligence
end Scam2Market
