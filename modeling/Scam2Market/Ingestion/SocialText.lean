import Scam2Market.Ingestion.Services
import Scam2Market.Intelligence.TextTools
import Scam2Market.Library.Scanning

/-!
# The text of a social post

`parse_social_post` of `ingestion/social.py` and the patterns it scans the text with.

* `UnicodeData`: what the program takes from the Unicode database, of characters and texts that are not
  ASCII.
* A tag is a mark that does not follow a word, a first character and some more (`tagAt`).
* A match is a place and a length; `groups` reads the texts.
-/

namespace Scam2Market
namespace Ingestion

open Intelligence (isAlnum isAscii)
open Library (Matcher scan)
open Streaming (SocialPost)

/-- What the program takes from the Unicode database. -/
structure UnicodeData where
  /-- `\w`, of a character that is not ASCII. -/
  isWord : Char → Bool
  /-- `re.IGNORECASE`, of two characters that are not both ASCII. -/
  sameLetter : Char → Char → Bool
  /-- `unicodedata.normalize("NFKC", text)`, of a text that is not ASCII. -/
  nfkc : String → String
  /-- `text.upper()`, of a text that is not ASCII. -/
  upper : String → String

/-- `[A-Za-z0-9_]`. -/
def isTagChar (c : Char) : Bool :=
  isAlnum c || c = '_'

/-- `[^\s<>()]`. -/
def isUrlChar (c : Char) : Bool :=
  !isSpace c && c ∉ ['<', '>', '(', ')']

namespace UnicodeData

variable (u : UnicodeData)

/-- `\w`. -/
def isWordChar (c : Char) : Bool :=
  if isAscii c then isTagChar c else u.isWord c

/-- Two characters match under `re.IGNORECASE`. -/
def ignoringCase (c d : Char) : Bool :=
  if isAscii c && isAscii d then c.toLower = d.toLower else u.sameLetter c d

/-- `unicodedata.normalize("NFKC", text)`. -/
def normalize (text : String) : String :=
  if text.toList.all isAscii then text else u.nfkc text

/-- `text.upper()`. -/
def upperText (text : String) : String :=
  if text.toList.all isAscii then String.ofList (text.toList.map Char.toUpper) else u.upper text

/-- `(?<!\w)`. -/
def notBehindWord (prev : Option Char) : Bool :=
  !prev.any u.isWordChar

/-- `(?!\w)`. -/
def notBeforeWord (text : List Char) : Bool :=
  !text.head?.any u.isWordChar

/-- The text begins with the literal, under `re.IGNORECASE`. -/
def beginsWith : List Char → List Char → Bool
  | [], _ => true
  | _ :: _, [] => false
  | c :: literal, d :: text => u.ignoringCase c d && beginsWith literal text

/-- A mark that is not behind a word, a first character, and at most so many of the rest. -/
def tagAt (mark : Char) (first rest : Char → Bool) (most : ℕ) : Matcher Char := fun prev text =>
  match text with
  | c :: d :: text =>
    if u.notBehindWord prev ∧ c = mark ∧ first d then some (2 + ((text.takeWhile rest).take most).length)
    else none
  | _ => none

/-- `HASHTAG_RE`. -/
def hashtagAt : Matcher Char :=
  u.tagAt '#' Char.isAlpha isTagChar 31

/-- `CASHTAG_RE`. -/
def cashtagAt : Matcher Char :=
  u.tagAt '$' Char.isAlpha isAlnum 15

/-- `USER_MENTION_RE`. -/
def userMentionAt : Matcher Char :=
  u.tagAt '@' isTagChar isTagChar 31

/-- The length of the scheme of a URL. -/
def schemeLength (text : List Char) : Option ℕ :=
  if u.beginsWith "https://".toList text then some 8
  else if u.beginsWith "http://".toList text then some 7
  else none

/-- `URL_RE`. -/
def urlAt : Matcher Char := fun _ text =>
  match u.schemeLength text with
  | some n =>
    let body := (text.drop n).takeWhile isUrlChar
    if body = [] then none else some (n + body.length)
  | none => none

end UnicodeData

/-- A database that knows the letters of ASCII only. -/
def asciiLetters : UnicodeData where
  isWord := fun _ => false
  sameLetter := fun _ _ => false
  nfkc := id
  upper := id

/-- The texts of the matches. -/
def groups (text : List Char) (found : List (ℕ × ℕ)) : List (List Char) :=
  found.map fun item => (text.drop item.1).take item.2

/-- `url.rstrip(".,;:!?")`. -/
def trimUrl (url : List Char) : List Char :=
  (url.reverse.dropWhile (· ∈ ['.', ',', ';', ':', '!', '?'])).reverse

/-- `RawSocialPost`, with the fields that the parser passes on. -/
structure RawThreadPost extends RawSocialPost where
  language : Option String := none
  replyTo : Option String := none
  repostOf : Option String := none

/-- `SocialPost`, with the fields that are stored. -/
structure ParsedPost extends SocialPost where
  pseudonymKeyVersion : ℕ
  text : String
  language : Option String
  userMentions : List String
  source : String
  sourcePostId : String

/-- The parser: the database of Unicode, `str` of a UUID, and the pseudonyms of authors. -/
structure SocialParser where
  unicode : UnicodeData
  str : Uuid String → String
  pseudonymize : (platform rawAuthorId : String) → String
  keyVersion : ℕ := 1

namespace SocialParser

variable (parser : SocialParser)

/-- `str(uuid5(NAMESPACE_URL, f"social-post:{scope_id}:{source}:{source_post_id}"))`. -/
def postId (source scopeId sourcePostId : String) : String :=
  parser.str ⟨"social-post:" ++ scopeId ++ ":" ++ source ++ ":" ++ sourcePostId⟩

/-- The tags of a text, without their marks. -/
def tags (m : Matcher Char) (text : String) : List String :=
  (groups text.toList (scan m text.toList)).map fun tag => String.ofList tag.tail

/-- The URLs of a text. -/
def urls (text : String) : List String :=
  (groups text.toList (scan parser.unicode.urlAt text.toList)).map fun url =>
    String.ofList (trimUrl url)

/-- `parse_social_post(raw, source=..., pseudonymizer=..., scope_id=...)`. -/
def parseSocialPost (raw : RawThreadPost) (source scopeId : String) : ParsedPost :=
  let text := parser.unicode.normalize raw.text
  { postId := parser.postId source scopeId raw.sourcePostId
    platform := raw.platform
    authorId := parser.pseudonymize raw.platform raw.rawAuthorId
    eventTime := raw.eventTime
    hashtags := (tags parser.unicode.hashtagAt text).map parser.unicode.upperText
    cashtags := (tags parser.unicode.cashtagAt text).map parser.unicode.upperText
    urls := parser.urls text
    replyTo := raw.replyTo
    repostOf := raw.repostOf
    pseudonymKeyVersion := parser.keyVersion
    text := text
    language := raw.language
    userMentions := tags parser.unicode.userMentionAt text
    source := source
    sourcePostId := raw.sourcePostId }

end SocialParser
end Ingestion
end Scam2Market
