import Reckon.Locale.Register
import Reckon.Text.Quoted

/-!
# Language tags

A language tag names a language, perhaps with a script and a region: `en`, `pt-BR`, `zh-Hant-TW`.
Variants and extensions can follow: `de-CH-1996`, `en-u-nu-deva`. Subtags are separated by hyphens
or underscores, and case does not matter.

A text can be ill-formed as a tag, or well-formed with a subtag that no register knows. That it is
ill-formed counts more than anything else, wherever that shows; of other faults the first counts.
So reading goes on behind a fault and collects them.
-/

namespace Reckon.Locale

/-- A language as it is written somewhere. -/
structure Variety where
  /-- The language, in lower case; `und` if it is not known. -/
  language : String
  /-- The script, in lower case after a capital. -/
  script : Option String := none
  /-- The region: letters in upper case, or digits. -/
  region : Option String := none
deriving DecidableEq, Repr

/-- A language tag. -/
structure Tag extends Variety where
  /-- Further marks of the variety. -/
  variants : List String := []
  /-- Wishes for the use of the language: keys of two characters with their values. -/
  keywords : List (String × String) := []
deriving DecidableEq, Repr

/-- Why a text is no language tag. -/
inductive TagError where
  /-- It does not have the form of one. -/
  | malformed
  /-- A subtag is not registered. -/
  | unknown (subtag : String)
  /-- A key has two different values. -/
  | conflict
deriving DecidableEq, Repr

/-- The text of an error. -/
def TagError.message : TagError → String
  | malformed => "language: tag is not well-formed"
  | unknown subtag => "language: subtag " ++ Text.quote subtag ++ " is well-formed but unknown"
  | conflict => "language: different values for same key in -u extension"

/-! ## Subtags -/

/-- Whether a character separates subtags. -/
def isSeparator (c : Char) : Bool :=
  c == '-' || c == '_'

/-- The parts of a text between separators. -/
def subtags : List Char → List (List Char)
  | [] => [[]]
  | c :: rest =>
      if isSeparator c then [] :: subtags rest
      else
        match subtags rest with
        | [] => [[c]]
        | first :: others => (c :: first) :: others

/-- Whether a part has the form of a subtag: one to eight letters and digits of ASCII. -/
def isSubtag (part : List Char) : Bool :=
  !part.isEmpty && part.length ≤ 8 && part.all Char.isAlphanum

/-- Whether a subtag has only letters. -/
def isWord (part : String) : Bool :=
  part.toList.all Char.isAlpha

/-- Whether a subtag has only digits. -/
def isNumber (part : String) : Bool :=
  part.toList.all Char.isDigit

/-- Whether the first character of a subtag is a letter. -/
def startsWithLetter (part : String) : Bool :=
  (part.toList.head?.map Char.isAlpha).getD false

/-- Whether the second character of a subtag is a letter. -/
def goesOnWithLetter (part : String) : Bool :=
  ((part.toList.drop 1).head?.map Char.isAlpha).getD false

/-- A subtag in upper case. -/
def upperCase (part : String) : String :=
  String.ofList (part.toList.map Char.toUpper)

/-- A subtag in lower case with a capital in front. -/
def titleCase (part : String) : String :=
  match part.toList with
  | [] => ""
  | first :: rest => String.ofList (first.toUpper :: rest)

/-- A name under which something is registered, or the error that it is not. -/
def registered (subtag : String) : Option String → Except TagError String
  | some name => .ok name
  | none => .error (.unknown subtag)

/-- The language a subtag stands for. -/
def languageOf (part : String) : Except TagError String :=
  if isWord part then registered part (Register.language? part) else .error .malformed

/-- The script a subtag stands for. -/
def scriptOf (part : String) : Except TagError String :=
  if !isWord part then .error .malformed
  else
    let name := titleCase part
    registered name (if Register.isScript name then some name else none)

/-- The region a subtag stands for. The error about a number does not show the number. -/
def regionOf (part : String) : Except TagError String :=
  let name := upperCase part
  if part.length = 3 && isNumber part then registered "" (Register.numberedRegion? part)
  else if !isWord part then .error .malformed
  else if part.length = 3 then registered name (Register.longRegion? name)
  else registered name (Register.shortRegion? name)

/-! ## Reading -/

/-- How far the reading of a tag has come. -/
structure Reading where
  /-- The subtags that have not been read, in lower case. -/
  rest : List String
  /-- What was wrong with those that have, in their order. -/
  faults : List TagError := []
deriving DecidableEq, Repr

/-- A step of reading. -/
abbrev ReadM := StateM Reading

namespace ReadM

/-- Add a fault. -/
def fault (error : TagError) : ReadM Unit :=
  modify fun reading => { reading with faults := reading.faults ++ [error] }

/-- Take the next subtags, as long as they satisfy a condition. -/
def takeWhile (condition : String → Bool) : ReadM (List String) := do
  let reading ← get
  set { reading with rest := reading.rest.dropWhile condition }
  return reading.rest.takeWhile condition

/-- Take the next subtag if it satisfies a condition. -/
def takeIf (condition : String → Bool) : ReadM (Option String) := do
  let reading ← get
  match reading.rest with
  | part :: rest =>
      if condition part then
        set { reading with rest }
        return some part
      else return none
  | [] => return none

/-- The value of a result, with its error among the faults. -/
def check {α : Type} : Except TagError α → ReadM (Option α)
  | .ok value => return some value
  | .error error => do
    fault error
    return none

/-- Read an optional subtag. -/
def optional (condition : String → Bool) (read : String → Except TagError String) :
    ReadM (Option String) := do
  match ← takeIf condition with
  | some part => check (read part)
  | none => return none

/-- Read a variety whose first subtag is `first`. Subtags of three characters behind the language
name another language that is part of it; it takes the place of the first if `narrow` is set, and
is not looked at otherwise. -/
def variety (first : String) (narrow : Bool) : ReadM Variety := do
  let language ← check (languageOf first)
  let narrower ← takeWhile fun part => part.length == 3 && startsWithLetter part
  let narrower ← if narrow then narrower.mapM fun part => check (languageOf part) else pure []
  let known := (language :: narrower).filterMap id
  let script ← optional (fun part => part.length == 4 && startsWithLetter part) scriptOf
  let region ← optional (fun part => part.length == 2 || part.length == 3) regionOf
  return { language := (known.filter (· != "und")).getLast?.getD "und", script, region }

/-- Read variants, which have at least four characters. -/
def variants : ReadM (List String) := do
  let parts ← takeWhile fun part => 4 ≤ part.length
  let strange := parts.filter fun part => !Register.variants.contains part
  strange.forM fun part => fault (.unknown part)
  return parts

/-- The keywords among subtags: keys of two characters, each with the longer subtags behind it. What
stands before the first key belongs to none. -/
def keywordsOf : List String → List (String × List String)
  | [] => []
  | part :: rest =>
      if part.length == 2 then (part, rest.takeWhile (2 < ·.length)) :: keywordsOf rest
      else keywordsOf rest

/-- Whether a key occurs with different values. -/
def inConflict (keywords : List (String × List String)) : Bool :=
  keywords.any fun one => keywords.any fun other => one.1 == other.1 && one.2 != other.2

/-- Read what an extension of keywords holds. Only the first part of each value is kept. -/
def keywordExtension : ReadM (List (String × String)) := do
  let parts ← takeWhile fun part => 2 ≤ part.length
  if parts.isEmpty then fault .malformed
  let keywords := keywordsOf parts
  if inConflict keywords then fault .conflict
  return keywords.filterMap fun keyword => keyword.2.head?.map fun value => (keyword.1, value)

/-- Whether a subtag is a key of the extension about transformed contents. -/
def isTransformKey (part : String) : Bool :=
  part.length == 2 && !goesOnWithLetter part

/-- Read what the extension about transformed contents holds: the variety they come from, and
fields. -/
def transformExtension : ReadM Unit := do
  let start := (← get).rest.length
  let first ← takeIf fun part =>
    (part.length == 2 || part.length == 3) && goesOnWithLetter part
  if let some part := first then
    let _ ← variety part false
    let _ ← variants
  if let some _ ← takeIf isTransformKey then
    let _ ← takeWhile fun part => 3 ≤ part.length || isTransformKey part
  if (← get).rest.length == start then fault .malformed

/-- Read an extension of which nothing but the length of its subtags is known. -/
def otherExtension (least : Nat) : ReadM Unit := do
  if (← takeWhile fun part => least ≤ part.length).isEmpty then fault .malformed

/-- Read extensions, each of which starts with a single character, and return the keywords in them.
What follows the last one is left. The first argument bounds the number of extensions. -/
def extensions : Nat → ReadM (List (String × String))
  | 0 => return []
  | bound + 1 => do
    match ← takeIf (·.length == 1) with
    | none => return []
    | some "u" =>
        let keywords ← keywordExtension
        return keywords ++ (← extensions bound)
    | some "t" =>
        transformExtension
        extensions bound
    | some "x" =>
        otherExtension 1
        extensions bound
    | some _ =>
        otherExtension 2
        extensions bound

/-- Read a tag whose first subtag is `first`. Other subtags than extensions must not be left. -/
def tag (first : String) : ReadM Tag := do
  let variety ← variety first true
  let variants ← variants
  match (← get).rest with
  | [] => return { toVariety := variety, variants }
  | part :: rest =>
      if part.length != 1 then fault .malformed
      let keywords ← extensions (rest.length + 1)
      return { toVariety := variety, variants, keywords }

end ReadM

namespace Tag

/-- Tags that are registered as a whole and do not follow the rules for subtags. -/
def irregular : List (String × Tag) :=
  [("root", { language := "und" }),
    ("art-lojban", { language := "jbo" }),
    ("cel-gaulish", { language := "xtg" }),
    ("en-gb-oed", { language := "en", region := some "GB", variants := ["oxendict"] }),
    ("en-us-posix", { language := "en", region := some "US", keywords := [("va", "posix")] }),
    ("i-ami", { language := "ami" }),
    ("i-bnn", { language := "bnn" }),
    ("i-default", { language := "en" }),
    ("i-enochian", { language := "und" }),
    ("i-hak", { language := "hak" }),
    ("i-klingon", { language := "tlh" }),
    ("i-lux", { language := "lb" }),
    ("i-mingo", { language := "see" }),
    ("i-navajo", { language := "nv" }),
    ("i-pwn", { language := "pwn" }),
    ("i-tao", { language := "tao" }),
    ("i-tay", { language := "tay" }),
    ("i-tsu", { language := "tsu" }),
    ("no-bok", { language := "nb" }),
    ("no-nyn", { language := "nn" }),
    ("sgn-be-fr", { language := "sfb" }),
    ("sgn-be-nl", { language := "vgt" }),
    ("sgn-ch-de", { language := "sgg" }),
    ("zh-guoyu", { language := "cmn" }),
    ("zh-hakka", { language := "hak" }),
    ("zh-min", { language := "nan" }),
    ("zh-min-nan", { language := "nan" }),
    ("zh-xiang", { language := "hsn" })]

/-- The value of a keyword. -/
def keyword? (tag : Tag) (key : String) : Option String :=
  tag.keywords.lookup key

/-- The tag with the names in use now. Two of the older names of languages also say which script or
which region is meant. -/
def current (tag : Tag) : Tag :=
  { tag with
    language := Register.currentLanguage tag.language
    script := if tag.language == "sh" then some (tag.script.getD "Latn") else tag.script
    region :=
      (if tag.language == "mo" then some (tag.region.getD "MD") else tag.region).map
        Register.currentRegion }

/-- The tag that was read, unless there were faults. -/
def verdict (tag : Tag) (faults : List TagError) : Except TagError Tag :=
  if faults.contains .malformed then .error .malformed
  else
    match faults with
    | [] => .ok tag.current
    | error :: _ => .error error

/-- The tag of subtags in lower case. It starts with a language, or is for private use only. -/
def ofSubtags : List String → Except TagError Tag
  | [] => .error .malformed
  | first :: rest =>
      if first == "x" then if rest.isEmpty then .error .malformed else .ok { language := "und" }
      else if first.length == 2 || first.length == 3 then
        let (tag, reading) := (ReadM.tag first).run { rest }
        tag.verdict reading.faults
      else .error .malformed

/-- Read a tag. -/
def parse (text : String) : Except TagError Tag :=
  let parts := subtags (text.toList.map Char.toLower)
  match irregular.lookup ("-".intercalate (parts.map String.ofList)) with
  | some tag => .ok tag.current
  | none =>
      if parts.all isSubtag then ofSubtags (parts.map String.ofList) else .error .malformed

end Tag

end Reckon.Locale
