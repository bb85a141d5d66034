import Reckon.Locale.Tag

/-!
# Whose customs a variety shares

Data about varieties of a language is kept only where it differs from that of a broader variety:
Austrian German follows German except where it is known not to. The broader varieties of a variety,
from near to far, are its lineage. A variety in a script that its language does not normally use
has no broader one.
-/

namespace Reckon.Locale

/-! ## Scripts -/

/-- Languages that are normally not written in Latin letters, by script. -/
def nativeScripts : List (String × List String) :=
  [("Arab", ["ar", "ckb", "fa", "ks", "lrc", "mzn", "ps", "sd", "ug", "ur"]),
    ("Armn", ["hy"]),
    ("Beng", ["as", "bn"]),
    ("Cakm", ["ccp"]),
    ("Cher", ["chr"]),
    ("Cyrl", ["be", "bg", "ce", "cu", "kk", "ky", "mk", "mn", "os", "ru", "sah", "sr", "tg", "tt",
      "uk"]),
    ("Deva", ["brx", "hi", "kok", "mr", "ne"]),
    ("Ethi", ["am", "ti"]),
    ("Geor", ["ka"]),
    ("Grek", ["el"]),
    ("Gujr", ["gu"]),
    ("Guru", ["pa"]),
    ("Hans", ["zh"]),
    ("Hant", ["yue"]),
    ("Hebr", ["he", "yi"]),
    ("Jpan", ["ja"]),
    ("Khmr", ["km"]),
    ("Knda", ["kn"]),
    ("Kore", ["ko"]),
    ("Laoo", ["lo"]),
    ("Mlym", ["ml"]),
    ("Mymr", ["my"]),
    ("Orya", ["or"]),
    ("Sinh", ["si"]),
    ("Taml", ["ta"]),
    ("Telu", ["te"]),
    ("Tfng", ["shi", "zgh"]),
    ("Thai", ["th"]),
    ("Tibt", ["bo", "dz"]),
    ("Vaii", ["vai"]),
    ("Yiii", ["ii"])]

/-- The script in which a language is normally written. -/
def usualScript (language : String) : String :=
  ((nativeScripts.find? fun row => row.2.contains language).map Prod.fst).getD "Latn"

/-- Languages that are written in another script in some regions. -/
def regionalScripts : List (String × String × List String) :=
  [("az", "Arab", ["IQ", "IR"]),
    ("az", "Cyrl", ["RU"]),
    ("ha", "Arab", ["CM", "SD"]),
    ("kk", "Arab", ["AF", "CN", "IR", "MN"]),
    ("ky", "Arab", ["CN"]),
    ("ky", "Latn", ["TR"]),
    ("mn", "Mong", ["CN"]),
    ("ms", "Arab", ["CC"]),
    ("pa", "Arab", ["PK"]),
    ("sd", "Deva", ["IN"]),
    ("sr", "Latn", ["ME", "RO", "TR"]),
    ("tg", "Arab", ["PK"]),
    ("ug", "Cyrl", ["KZ", "MN"]),
    ("uz", "Arab", ["AF"]),
    ("uz", "Cyrl", ["CN"]),
    ("yue", "Hans", ["CN"]),
    ("zh", "Hant", ["AU", "BN", "GB", "GF", "HK", "ID", "MO", "PA", "PF", "PH", "SR", "TH", "TW",
      "US", "VN"])]

/-- The script in which a language is written in a region. -/
def scriptIn (language region : String) : String :=
  match regionalScripts.find? fun row => row.1 == language && row.2.2.contains region with
  | some row => row.2.1
  | none => usualScript language

/-! ## Broader varieties -/

/-- Varieties that stand between those of some regions and their language. -/
def betweenRegions : List (String × String × List String) :=
  [("es", "419", ["AR", "BO", "BR", "BZ", "CL", "CO", "CR", "CU", "DO", "EC", "GT", "HN", "MX",
      "NI", "PA", "PE", "PR", "PY", "SV", "US", "UY", "VE"]),
    ("pt", "PT", ["AO", "CH", "CV", "FR", "GQ", "GW", "LU", "MO", "MZ", "ST", "TL"])]

namespace Variety

/-- A variety without a region. Its script is left out if the language is normally written in it. -/
def broad (language script : String) : Variety :=
  { language, script := if script == usualScript language then none else some script }

/-- The next broader variety, if there is one. -/
def broader? (variety : Variety) : Option Variety :=
  if variety.language == "und" then none
  else
    match variety.region, variety.script with
    | some region, script =>
        let script := script.getD (scriptIn variety.language region)
        match betweenRegions.find? fun row =>
            row.1 == variety.language && row.2.2.contains region && script == "Latn" with
        | some row => some { language := row.1, region := some row.2.1 }
        | none => some (broad variety.language script)
    | none, some script =>
        if script == usualScript variety.language then some { language := variety.language }
        else none
    | none, none => none

/-- A variety and the broader ones, from near to far. The first argument bounds their number. -/
def ancestors : Nat → Variety → List Variety
  | 0, _ => []
  | bound + 1, variety =>
      variety ::
        match variety.broader? with
        | some next => ancestors bound next
        | none => []

/-- Regions with a language of their own that is written in more than one script: the variety that
is meant by naming the region only. -/
def ofRegion : List (String × Variety) :=
  [("AZ", { language := "az", script := some "Latn", region := some "AZ" }),
    ("BA", { language := "bs", script := some "Latn", region := some "BA" }),
    ("ME", { language := "sr", script := some "Latn", region := some "ME" }),
    ("RS", { language := "sr", script := some "Cyrl", region := some "RS" }),
    ("UZ", { language := "uz", script := some "Latn", region := some "UZ" })]

/-- The variety that is meant, where only a region is given. -/
def meant (variety : Variety) : Variety :=
  if variety.language == "und" && variety.script.isNone then
    (variety.region.bind fun region => ofRegion.lookup region).getD variety
  else variety

/-- The varieties whose customs a variety shares, from near to far. A step drops the region, stands
in for it once, or drops the script, so there are never more than four. -/
def lineage (variety : Variety) : List Variety :=
  ancestors 4 variety.meant

/-- The name of a variety in tables. -/
def name (variety : Variety) : String :=
  "-".intercalate (variety.language :: (variety.script.toList ++ variety.region.toList))

end Variety

end Reckon.Locale
