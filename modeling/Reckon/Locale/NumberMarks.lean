import Reckon.Locale.Lineage

/-!
# Numbering systems and the marks in numbers

Besides digits a number has marks: between groups of digits, before the fraction and in front of
what is negative. Which ones depends on the variety of the language and on the digits. The tables
here have entries for varieties that do not share the marks of the next broader one.
-/

/-!
## Numbering systems

A numbering system that puts digits next to each other is known by its zero; the other nine digits
follow it. Other systems, such as Roman numerals, are only known by name here, and numbers are
written in common digits where they are asked for.
-/

namespace Reckon.Locale

/-- A way of writing whole numbers. -/
structure NumberingSystem where
  /-- Its name. -/
  name : String
  /-- Its zero, a code point. -/
  zero : Nat := 0x30
deriving DecidableEq, Repr

namespace NumberingSystem

/-- The common digits. -/
def latin : NumberingSystem := { name := "latn" }

/-- The systems with digits, by their zeros. -/
def positional : List NumberingSystem :=
  [⟨"adlm", 0x1E950⟩, ⟨"ahom", 0x11730⟩, ⟨"arab", 0x660⟩, ⟨"arabext", 0x6F0⟩, ⟨"bali", 0x1B50⟩,
    ⟨"beng", 0x9E6⟩, ⟨"bhks", 0x11C50⟩, ⟨"brah", 0x11066⟩, ⟨"cakm", 0x11136⟩, ⟨"cham", 0xAA50⟩,
    ⟨"deva", 0x966⟩, ⟨"fullwide", 0xFF10⟩, ⟨"gonm", 0x11D50⟩, ⟨"gujr", 0xAE6⟩, ⟨"guru", 0xA66⟩,
    ⟨"hmng", 0x16B50⟩, ⟨"java", 0xA9D0⟩, ⟨"kali", 0xA900⟩, ⟨"khmr", 0x17E0⟩, ⟨"knda", 0xCE6⟩,
    ⟨"lana", 0x1A80⟩, ⟨"lanatham", 0x1A90⟩, ⟨"laoo", 0xED0⟩, ⟨"latn", 0x30⟩, ⟨"lepc", 0x1C40⟩,
    ⟨"limb", 0x1946⟩, ⟨"mathbold", 0x1D7CE⟩, ⟨"mathdbl", 0x1D7D8⟩, ⟨"mathmono", 0x1D7F6⟩,
    ⟨"mathsanb", 0x1D7EC⟩, ⟨"mathsans", 0x1D7E2⟩, ⟨"mlym", 0xD66⟩, ⟨"modi", 0x11650⟩,
    ⟨"mong", 0x1810⟩, ⟨"mroo", 0x16A60⟩, ⟨"mtei", 0xABF0⟩, ⟨"mymr", 0x1040⟩, ⟨"mymrshan", 0x1090⟩,
    ⟨"mymrtlng", 0xA9F0⟩, ⟨"newa", 0x11450⟩, ⟨"nkoo", 0x7C0⟩, ⟨"olck", 0x1C50⟩, ⟨"orya", 0xB66⟩,
    ⟨"osma", 0x104A0⟩, ⟨"saur", 0xA8D0⟩, ⟨"shrd", 0x111D0⟩, ⟨"sind", 0x112F0⟩, ⟨"sinh", 0xDE6⟩,
    ⟨"sora", 0x110F0⟩, ⟨"sund", 0x1BB0⟩, ⟨"takr", 0x116C0⟩, ⟨"talu", 0x19D0⟩, ⟨"tamldec", 0xBE6⟩,
    ⟨"telu", 0xC66⟩, ⟨"thai", 0xE50⟩, ⟨"tibt", 0xF20⟩, ⟨"tirh", 0x114D0⟩, ⟨"vaii", 0xA620⟩,
    ⟨"wara", 0x118E0⟩]

/-- The systems without digits. -/
def additive : List NumberingSystem :=
  ["armn", "armnlow", "cyrl", "ethi", "geor", "grek", "greklow", "hanidays", "hanidec", "hans",
    "hansfin", "hant", "hantfin", "hebr", "jpan", "jpanfin", "roman", "romanlow", "taml"].map
    fun name => { name }

/-- The system with a name. -/
def ofName? (name : String) : Option NumberingSystem :=
  (positional ++ additive).find? fun system => system.name == name

/-- A common digit as a digit of the system. -/
def digit (system : NumberingSystem) (common : Char) : Char :=
  Char.ofNat (system.zero + (common.toNat - 0x30))

end NumberingSystem

/-! ## Marks -/

/-- The marks in numbers. -/
structure NumberMarks where
  /-- Between groups of digits. -/
  group : String := ","
  /-- Between the whole part and the fraction. -/
  decimal : String := "."
  /-- In front of negative numbers. -/
  minus : String := "-"
  /-- What is written for what is too large. -/
  infinity : String := "∞"
deriving DecidableEq, Repr

namespace NumberMarks

/-- The space that does not break lines. -/
def fixedSpace : String := "\u00a0"

/-- The minus sign of mathematics. -/
def minusSign : String := "\u2212"

/-- The apostrophe of typesetting. -/
def apostrophe : String := "\u2019"

/-- A hyphen that keeps its place between letters that run to the left. -/
def guardedHyphen : String := "\u200e-"

/-- Points between groups and a comma before the fraction. -/
def pointAndComma : NumberMarks := { group := ".", decimal := "," }

/-- Spaces between groups and a comma before the fraction. -/
def spaceAndComma : NumberMarks := { group := fixedSpace, decimal := "," }

/-- Spaces between groups and a point before the fraction. -/
def spaceAndPoint : NumberMarks := { group := fixedSpace }

/-- Apostrophes between groups and a point before the fraction. -/
def apostropheAndPoint : NumberMarks := { group := apostrophe }

/-- The marks among Arabic digits. -/
def arabic : NumberMarks := { group := "\u066c", decimal := "\u066b", minus := "\u061c-" }

/-- The marks among the Arabic digits of the east. -/
def easternArabic : NumberMarks := { arabic with minus := "\u200e-\u200e" }

/-! ## Common digits -/

/-- The marks among common digits, by variety. -/
def amongCommonDigits : List (NumberMarks × List String) :=
  [({}, ["es-419"]),
    (pointAndComma,
      ["ast", "az", "az-Cyrl", "bs", "bs-Cyrl", "ca", "da", "de", "dsb", "el", "en-BE", "en-DE",
        "en-DK", "en-NL", "en-SI", "es", "es-AR", "es-BO", "es-CL", "es-CO", "es-EC", "es-PY",
        "es-UY", "es-VE", "fr-BE", "fr-LU", "fr-MA", "fur", "fy", "gl", "hr", "hsb", "id", "is",
        "it", "jgo", "kkj", "kl", "km", "lb", "ln", "lo", "lu", "mgh", "mk", "ms-BN", "mua", "nds",
        "nl", "nnh", "pt", "qu-BO", "rn", "ro", "rw", "seh", "sg", "sr", "sr-Latn", "sw-CD", "tr",
        "vi", "wo"]),
    ({ pointAndComma with minus := minusSign }, ["eu", "fo", "sl"]),
    ({ pointAndComma with minus := guardedHyphen }, ["ar-DZ", "ar-LY", "ar-MA", "ar-TN"]),
    ({ pointAndComma with minus := "\u200e\u2212" }, ["ps"]),
    (spaceAndComma,
      ["af", "agq", "bas", "be", "bg", "br", "cs", "cu", "de-AT", "dua", "dyo", "en-AT", "en-FI",
        "en-SE", "en-ZA", "eo", "es-CR", "ewo", "ff", "fr", "hu", "hy", "ka", "kab", "kea", "kk",
        "ksf", "ky", "lv", "nmg", "os", "pl", "prg", "pt-PT", "ru", "sah", "shi", "shi-Latn", "sk",
        "smn", "sq", "tg", "tk", "tt", "tzm", "uk", "uz", "uz-Cyrl", "yav", "zgh"]),
    ({ spaceAndComma with minus := minusSign },
      ["et", "fi", "ksh", "lt", "nb", "nn", "se", "sv"]),
    (spaceAndPoint, ["dje", "fr-CH", "khq", "mfe", "ses", "twq"]),
    (apostropheAndPoint, ["de-CH", "de-LI", "en-CH", "it-CH"]),
    ({ apostropheAndPoint with minus := minusSign }, ["gsw", "rm"]),
    ({ group := apostrophe, decimal := "," }, ["wae"]),
    ({ minus := guardedHyphen }, ["ar", "he", "ur"]),
    ({ minus := "\u200e\u2212" }, ["fa"]),
    ({ infinity := "INF" }, ["en-US-posix"])]

/-! ## Other digits -/

/-- Varieties that normally use other digits: the system, and the marks among its digits. -/
def amongOtherDigits : List (String × NumberMarks × List String) :=
  [("arab", arabic, ["ar", "sd"]),
    ("arab", { arabic with minus := "\u200f-" }, ["ckb"]),
    ("arabext", easternArabic, ["ks", "lrc", "mzn", "pa-Arab", "ps", "ur-IN", "uz-Arab"]),
    ("arabext", { arabic with minus := "\u200e\u2212" }, ["fa"]),
    ("beng", {}, ["as", "bn"]),
    ("cakm", {}, ["ccp"]),
    ("deva", {}, ["mr", "ne"]),
    ("mymr", {}, ["my"]),
    ("tibt", { infinity := "གྲངས་མེད" }, ["dz"])]

/-- Varieties that have common digits although the next broader one has others. -/
def backToCommonDigits : List String :=
  ["ar-DZ", "ar-EH", "ar-LY", "ar-MA", "ar-TN"]

/-! ## Look-up

A lineage is given by the names of its varieties, from near to far. -/

/-- The other digits a variety normally uses, and the marks among them. -/
def other? (name : String) : Option (String × NumberMarks) :=
  (amongOtherDigits.find? fun row => row.2.2.contains name).map fun row => (row.1, row.2.1)

/-- The marks among common digits. -/
def common (lineage : List String) : NumberMarks :=
  (lineage.findSome? fun name =>
    (amongCommonDigits.find? fun row => row.2.contains name).map Prod.fst).getD {}

/-- The name of the system that a lineage normally uses. -/
def usualSystem : List String → String
  | [] => "latn"
  | name :: broader =>
      if backToCommonDigits.contains name then "latn"
      else
        match other? name with
        | some (system, _) => system
        | none => usualSystem broader

/-- The marks among the digits of a system. A lineage that normally uses other digits than those of
the system has the marks among common digits for them; so does every lineage for most systems, but
Arabic digits have marks of their own. -/
def among (system : String) (lineage : List String) : NumberMarks :=
  if system == "latn" then common lineage
  else
    match lineage.findSome? other? with
    | some (own, marks) => if own == system then marks else common lineage
    | none =>
        if system == "arab" then arabic
        else if system == "arabext" then easternArabic
        else common lineage

/-! ## What is no number -/

/-- What is written for what is no number, by variety. -/
def notNumbers : List (String × String) :=
  [("ar", "ليس\u00a0رقم"), ("ar-DZ", "ليس\u00a0رقمًا"), ("ar-EH", "ليس\u00a0رقمًا"),
    ("ar-LY", "ليس\u00a0رقمًا"), ("ar-MA", "ليس\u00a0رقمًا"), ("ar-TN", "ليس\u00a0رقمًا"),
    ("ast", "ND"), ("ce", "Терхьаш\u00a0дац"), ("dz", "ཨང་མད"), ("ee", "mnn"), ("fa", "ناعدد"),
    ("fi", "epäluku"), ("hy", "ՈչԹ"), ("ka", "არ\u00a0არის\u00a0რიცხვი"), ("kk", "сан\u00a0емес"),
    ("kl", "¤¤¤"), ("ksh", "¤¤¤"), ("ky", "сан\u00a0эмес"),
    ("lo", "ບໍ່\u200bແມ່ນ\u200bໂຕ\u200bເລກ"), ("lv", "NS"), ("my", "ဂဏန်းမဟုတ်သော"), ("os", "НН"),
    ("ru", "не\u00a0число"), ("sah", "чыыһыла\u00a0буотах"), ("se", "¤¤¤"), ("smn", "epiloho"),
    ("sv", "¤¤¤"), ("tk", "san\u00a0däl"), ("to", "TF"), ("uz", "son\u00a0emas"),
    ("uz-Cyrl", "ҳақиқий\u00a0сон\u00a0эмас"), ("yue", "非數值"), ("yue-Hans", "非数值"),
    ("zh-Hant", "非數值")]

/-- What a lineage writes for what is no number. -/
def notNumber (lineage : List String) : String :=
  (lineage.findSome? fun name => notNumbers.lookup name).getD "NaN"

end NumberMarks

end Reckon.Locale
