import Mathlib.Data.List.Infix
import Scam2Market.Intelligence.ThreatRepository
import Scam2Market.Library.Tokens

/-!
# The standard library of the threat indicators

What `intelligence/threat.py` calls: `str.lower`, the IDNA codec, `ipaddress.ip_address`, and `urlsplit`
with the properties `hostname` and `port`.

* ASCII text is lowered, and encoded, character by character; an IPv4 address is its own compressed form.
* `StandardLibrary` has what the rest is: text that is not ASCII, IPv6 addresses, and the checks of a
  netloc that is not ASCII or has brackets.
* A port that cannot be read fails here in `urlsplit`; `_url` reads it in any case.
-/

namespace Scam2Market
namespace Intelligence

structure StandardLibrary where
  /-- `value.lower()`, of a text that is not ASCII. -/
  lower : String → String
  /-- `value.lower().encode("idna").decode("ascii")`, of a text that is not ASCII. -/
  idna : String → Option String
  /-- `_checknetloc` does not raise, for a netloc that is not ASCII. -/
  acceptsNetloc : String → Bool
  /-- `_check_bracketed_netloc` does not raise. -/
  acceptsBrackets : String → Bool
  /-- `IPv6Address(value).compressed`. -/
  ipv6 : String → Option String
  /-- The lower case of the database, of a character that is not ASCII. -/
  databaseLower : Char → Char

/-! ## Characters -/

def isAscii (c : Char) : Bool :=
  c.toNat < 128

/-- `scheme_chars`. -/
def isSchemeChar (c : Char) : Bool :=
  isAlnum c || c ∈ ['+', '-', '.']

/-- What ends a netloc. -/
def endsNetloc (c : Char) : Bool :=
  c ∈ ['/', '?', '#']

/-- `text.partition(separator)[0]`. -/
def before (separator : Char) (text : List Char) : List Char :=
  text.takeWhile (· ≠ separator)

/-- `text.partition(separator)[2]`. -/
def behind (separator : Char) (text : List Char) : List Char :=
  (text.dropWhile (· ≠ separator)).tail

/-- `text.rpartition(separator)[2]`. -/
def behindLast (separator : Char) (text : List Char) : List Char :=
  (text.reverse.takeWhile (· ≠ separator)).reverse

/-! ## Splitting a URL -/

/-- The scheme, in lower case, and the rest. -/
def splitScheme (url : List Char) : List Char × List Char :=
  let scheme := before ':' url
  if ':' ∈ url ∧ scheme.head?.any Char.isAlpha ∧ scheme.all isSchemeChar then
    (scheme.map Char.toLower, behind ':' url)
  else ([], url)

/-- The netloc, and the rest. -/
def splitNetloc (url : List Char) : List Char × List Char :=
  if ['/', '/'] <+: url then
    ((url.drop 2).takeWhile (!endsNetloc ·), (url.drop 2).dropWhile (!endsNetloc ·))
  else ([], url)

/-- `_hostinfo`: the host, and the port. -/
def hostInfo (netloc : List Char) : List Char × List Char :=
  let info := behindLast '@' netloc
  if '[' ∈ info then (before ']' (behind '[' info), behind ':' (behind ']' (behind '[' info)))
  else (before ':' info, behind ':' info)

/-- `port`, if it can be read. -/
def portOf (netloc : List Char) : Option (Option ℕ) :=
  let port := (hostInfo netloc).2
  if port = [] then some none
  else if port.all Char.isDigit ∧ Nat.ofDigitChars 10 port 0 ≤ 65535 then
    some (some (Nat.ofDigitChars 10 port 0))
  else none

/-- The text of a URL without leading control characters and spaces, and without tabs and line breaks. -/
def cleanUrl (url : String) : List Char :=
  (url.toList.dropWhile fun c => c.toNat ≤ 32).filter fun c => c ∉ ['\t', '\r', '\n']

/-- `0`, or at most three digits that do not begin with it, up to 255. -/
def isOctet (octet : List Char) : Bool :=
  octet ≠ [] && octet.all Char.isDigit && octet.length ≤ 3 && (octet = ['0'] || octet.head? ≠ some '0') &&
    Nat.ofDigitChars 10 octet 0 ≤ 255

/-- `IPv4Address(value)` does not raise. -/
def isIpv4 (value : String) : Bool :=
  (value.toList.splitOn '.').length = 4 && (value.toList.splitOn '.').all isOctet

/-- The labels of an ASCII name are not too long, and only the last one may be empty. -/
def areLabels (labels : List (List Char)) : Bool :=
  labels.all (fun label => label.length < 64) && labels.dropLast.all (· ≠ [])

namespace StandardLibrary

variable (library : StandardLibrary)

/-- `value.lower()`. -/
def lowerText (value : String) : String :=
  if value.toList.all isAscii then String.ofList (value.toList.map Char.toLower)
  else library.lower value

/-- `value.lower().encode("idna").decode("ascii")`. -/
def idnaText (value : String) : Option String :=
  if value.toList.all isAscii then
    if areLabels ((value.toList.map Char.toLower).splitOn '.') then
      some (String.ofList (value.toList.map Char.toLower))
    else none
  else library.idna value

/-- `hostname`. -/
def hostnameOf (netloc : List Char) : Option String :=
  let name := (hostInfo netloc).1
  if name = [] then none
  else if '%' ∈ name then
    some (library.lowerText (String.ofList (before '%' name)) ++ "%" ++
      String.ofList (behind '%' name))
  else some (library.lowerText (String.ofList name))

/-- The checks of the netloc do not raise. -/
def accepts (netloc : List Char) : Bool :=
  decide ('[' ∈ netloc) == decide (']' ∈ netloc) &&
    ('[' ∉ netloc || library.acceptsBrackets (String.ofList netloc)) &&
      (netloc.all isAscii || library.acceptsNetloc (String.ofList netloc))

/-- `urlsplit(url)`. -/
def urlsplit (url : String) : Option UrlParts :=
  let (scheme, rest) := splitScheme (cleanUrl url)
  let (netloc, rest) := splitNetloc rest
  if library.accepts netloc then
    (portOf netloc).map fun port => {
      scheme := String.ofList scheme
      hostname := library.hostnameOf netloc
      port := port
      path := String.ofList (before '?' (before '#' rest))
      query := String.ofList (behind '?' (before '#' rest)) }
  else none

/-- `ip_address(value)`: the version and the compressed form. -/
def ipAddress (value : String) : Option (ℕ × String) :=
  if isIpv4 value then some (4, value) else (library.ipv6 value).map (6, ·)

def textTools : TextTools where
  lower := library.lowerText
  idna := library.idnaText
  urlsplit := library.urlsplit
  ipAddress := library.ipAddress

/-- The standard library and the database. -/
def matchTools : MatchTools where
  toTextTools := library.textTools
  lowerChar := fun c => if isAscii c then c.toLower else library.databaseLower c

end StandardLibrary

/-! ## ASCII text -/

theorem isAscii_of_isAlnum {c : Char} (h : isAlnum c = true) : isAscii c = true := by
  have hle : c ≤ 'z' := by
    simp only [isAlnum, isLowerAlnum, Bool.or_eq_true, Bool.and_eq_true, decide_eq_true_eq] at h
    rcases h with (⟨-, h⟩ | ⟨-, h⟩) | ⟨-, h⟩
    · exact h
    · exact h.trans (by decide)
    · exact h.trans (by decide)
  exact decide_eq_true (Nat.lt_of_le_of_lt hle (by decide))

theorem isAscii_of_isCandidateChar {c : Char} (h : isCandidateChar c = true) : isAscii c = true := by
  rw [isCandidateChar, Bool.or_eq_true, decide_eq_true_iff] at h
  rcases h with h | h
  · exact isAscii_of_isAlnum h
  · exact (List.all_eq_true (p := isAscii)).mp (by decide) c h

namespace StandardLibrary

variable {library : StandardLibrary} {value domain : String}

theorem lowerText_ascii (h : ∀ c ∈ value.toList, isAscii c = true) :
    library.lowerText value = String.ofList (value.toList.map Char.toLower) :=
  if_pos (List.all_eq_true.mpr h)

theorem idnaText_ascii (h : ∀ c ∈ value.toList, isAscii c = true)
    (hdomain : library.idnaText value = some domain) :
    domain.toList = value.toList.map Char.toLower := by
  rw [idnaText, if_pos (List.all_eq_true.mpr h)] at hdomain
  split_ifs at hdomain
  rw [← Option.some.inj hdomain, String.toList_ofList]

/-- A domain has labels of letters, digits and hyphens. -/
theorem domainOf_eq_some (h : domainOf library.textTools value = some domain) :
    library.idnaText (String.ofList (value.toList.rdropWhile (· = '.'))) = some domain ∧
      domain ≠ "" ∧ ∀ label ∈ domain.toList.splitOn '.', isLabel label = true := by
  obtain ⟨found, hfound, h⟩ := Option.bind_eq_some_iff.mp h
  split_ifs at h with hlabels
  obtain rfl := Option.some.inj h
  refine ⟨?_, hlabels.2.1, List.all_eq_true.mp hlabels.2.2⟩
  rw [List.rdropWhile]
  exact hfound

/-- The characters of a domain. -/
def isDomainChar (c : Char) : Bool :=
  isLowerAlnum c || c = '-' || c = '.'

theorem isDomainChar_of_domainOf (h : domainOf library.textTools value = some domain) :
    ∀ c ∈ domain.toList, isDomainChar c = true := by
  intro c hc
  obtain ⟨-, -, hlabels⟩ := domainOf_eq_some h
  by_cases hdot : c = '.'
  · rw [hdot]
    rfl
  · obtain ⟨label, hlabel, hmem⟩ := Library.exists_mem_splitOn hc hdot
    have hall := hlabels label hlabel
    rw [isLabel, Bool.and_eq_true] at hall
    rw [isDomainChar, List.all_eq_true.mp hall.2 c hmem, Bool.true_or]

/-- The domain of an ASCII text is the text in lower case, without dots at its end. -/
theorem toList_domainOf_ascii (hvalue : ∀ c ∈ value.toList, isAscii c = true)
    (h : domainOf library.textTools value = some domain) :
    domain.toList = (value.toList.rdropWhile (· = '.')).map Char.toLower := by
  have hascii : ∀ c ∈ (String.ofList (value.toList.rdropWhile (· = '.'))).toList,
      isAscii c = true := by
    rw [String.toList_ofList]
    exact fun c hc => hvalue c ((List.rdropWhile_prefix _ _).subset hc)
  rw [idnaText_ascii hascii (domainOf_eq_some h).1, String.toList_ofList]

end StandardLibrary

end Intelligence
end Scam2Market
