/-!
# The registers of locales

The names that a tag of a locale can be made of: languages, regions, scripts and variants.
-/

/-!
## The register of languages

Languages have names of two or of three letters. A language with a name of two letters also has one
of three, which stands for the same language, and some languages have older names.
-/

namespace Reckon.Locale.Register

/-- The languages with names of two letters, each with its name of three letters. -/
def shortLanguages : List (String × String) :=
  [("aa", "aar"), ("ab", "abk"), ("ae", "ave"), ("af", "afr"), ("ak", "aka"), ("am", "amh"),
    ("an", "arg"), ("ar", "ara"), ("as", "asm"), ("av", "ava"), ("ay", "aym"), ("az", "aze"),
    ("ba", "bak"), ("be", "bel"), ("bg", "bul"), ("bh", "bih"), ("bi", "bis"), ("bm", "bam"),
    ("bn", "ben"), ("bo", "bod"), ("br", "bre"), ("bs", "bos"), ("ca", "cat"), ("ce", "che"),
    ("ch", "cha"), ("co", "cos"), ("cr", "cre"), ("cs", "ces"), ("cu", "chu"), ("cv", "chv"),
    ("cy", "cym"), ("da", "dan"), ("de", "deu"), ("dv", "div"), ("dz", "dzo"), ("ee", "ewe"),
    ("el", "ell"), ("en", "eng"), ("eo", "epo"), ("es", "spa"), ("et", "est"), ("eu", "eus"),
    ("fa", "fas"), ("ff", "ful"), ("fi", "fin"), ("fj", "fij"), ("fo", "fao"), ("fr", "fra"),
    ("fy", "fry"), ("ga", "gle"), ("gd", "gla"), ("gl", "glg"), ("gn", "grn"), ("gu", "guj"),
    ("gv", "glv"), ("ha", "hau"), ("he", "heb"), ("hi", "hin"), ("ho", "hmo"), ("hr", "hrv"),
    ("ht", "hat"), ("hu", "hun"), ("hy", "hye"), ("hz", "her"), ("ia", "ina"), ("id", "ind"),
    ("ie", "ile"), ("ig", "ibo"), ("ii", "iii"), ("ik", "ipk"), ("io", "ido"), ("is", "isl"),
    ("it", "ita"), ("iu", "iku"), ("ja", "jpn"), ("jv", "jav"), ("ka", "kat"), ("kg", "kon"),
    ("ki", "kik"), ("kj", "kua"), ("kk", "kaz"), ("kl", "kal"), ("km", "khm"), ("kn", "kan"),
    ("ko", "kor"), ("kr", "kau"), ("ks", "kas"), ("ku", "kur"), ("kv", "kom"), ("kw", "cor"),
    ("ky", "kir"), ("la", "lat"), ("lb", "ltz"), ("lg", "lug"), ("li", "lim"), ("ln", "lin"),
    ("lo", "lao"), ("lt", "lit"), ("lu", "lub"), ("lv", "lav"), ("mg", "mlg"), ("mh", "mah"),
    ("mi", "mri"), ("mk", "mkd"), ("ml", "mal"), ("mn", "mon"), ("mo", "mol"), ("mr", "mar"),
    ("ms", "msa"), ("mt", "mlt"), ("my", "mya"), ("na", "nau"), ("nb", "nob"), ("nd", "nde"),
    ("ne", "nep"), ("ng", "ndo"), ("nl", "nld"), ("nn", "nno"), ("no", "nor"), ("nr", "nbl"),
    ("nv", "nav"), ("ny", "nya"), ("oc", "oci"), ("oj", "oji"), ("om", "orm"), ("or", "ori"),
    ("os", "oss"), ("pa", "pan"), ("pi", "pli"), ("pl", "pol"), ("ps", "pus"), ("pt", "por"),
    ("qu", "que"), ("rm", "roh"), ("rn", "run"), ("ro", "ron"), ("ru", "rus"), ("rw", "kin"),
    ("sa", "san"), ("sc", "srd"), ("sd", "snd"), ("se", "sme"), ("sg", "sag"), ("sh", "hbs"),
    ("si", "sin"), ("sk", "slk"), ("sl", "slv"), ("sm", "smo"), ("sn", "sna"), ("so", "som"),
    ("sq", "sqi"), ("sr", "srp"), ("ss", "ssw"), ("st", "sot"), ("su", "sun"), ("sv", "swe"),
    ("sw", "swa"), ("ta", "tam"), ("te", "tel"), ("tg", "tgk"), ("th", "tha"), ("ti", "tir"),
    ("tk", "tuk"), ("tl", "tgl"), ("tn", "tsn"), ("to", "ton"), ("tr", "tur"), ("ts", "tso"),
    ("tt", "tat"), ("tw", "twi"), ("ty", "tah"), ("ug", "uig"), ("uk", "ukr"), ("ur", "urd"),
    ("uz", "uzb"), ("ve", "ven"), ("vi", "vie"), ("vo", "vol"), ("wa", "wln"), ("wo", "wol"),
    ("xh", "xho"), ("yi", "yid"), ("yo", "yor"), ("za", "zha"), ("zh", "zho"), ("zu", "zul")]

/-- Older names of two letters, without one of three. -/
def oldShortLanguages : List String :=
  ["in", "iw", "ji", "jw"]

/-- The names of three letters: the first two letters of each, and the letters that can follow. -/
def longLanguages : List (String × String) :=
  [("aa", "abcdefghiklmnopqrstuvwxz"), ("ab", "abcdefghijklmnopqrstuvwxyz"),
    ("ac", "abdefhklmnpqrstuvwxyz"), ("ad", "abdefghijlnopqrstuwxyz"), ("ae", "abcdeklmnqrsuwyz"),
    ("af", "abdeghiknoprsuz"), ("ag", "abcdefghijklmnopqrstuvwxyz"), ("ah", "abghiklmnoprst"),
    ("ai", "abcdefghijklmnopqrstwxy"), ("aj", "aginpstuwz"), ("ak", "abcdefghijklmopqrstuvwxyz"),
    ("al", "abcdefghijklmnopqrstuvwxyz"), ("am", "abcefghijkmnopqrstuvwxyz"),
    ("an", "abcdefghijklmnopqrstuvwxyz"), ("ao", "abcdefghijklmnrstxz"),
    ("ap", "abcdefghijklmnopqrstuvwxyz"), ("aq", "acdgklmnprtz"),
    ("ar", "abcdeghijklmnopqrstuvwxyz"), ("as", "abcdefghijklmnopqrstuvwxyz"),
    ("at", "abcdeghijklmnopqrstuvwxyz"), ("au", "acdefghijklmnopqrstuwxyz"),
    ("av", "abdeiklmnostuv"), ("aw", "abcdeghikmnorstuvwxy"), ("ax", "begklmx"),
    ("ay", "abcdeghiklmnopqrstuxyz"), ("az", "bcdegjmnotz"), ("ba", "abcdefghijklmnopqrstuvwxyz"),
    ("bb", "abcdefghijklmnopqrstuvwxyz"), ("bc", "abcdefghijklmnopqrstuvwyz"),
    ("bd", "abcdefghijklmnopqrstuvwxyz"), ("be", "abcdefhijklmnopqrstuvwxyz"),
    ("bf", "abcdefghijklmnopqstuwxyz"), ("bg", "abcdfgijklmnopqrstuvwxyz"),
    ("bh", "abcdefghijklmnopqrstuvwyz"), ("bi", "abcdefghjklmnopqrstuvwxyz"),
    ("bj", "abcdefghijklmnopqrstuvwxyz"), ("bk", "abcdfghijklmnopqrstuvwxyz"),
    ("bl", "abcdefghijklmnopqrstvwxyz"), ("bm", "abcdefghijklmnopqrstuvwxyz"),
    ("bn", "abcdefgijklmnopqrstuvwxyz"), ("bo", "abdefghijklmnopqrstuvwxyz"),
    ("bp", "abcdeghijklmnopqrstuvwxyz"), ("bq", "abcdfghijklmnopqrstuvwxyz"),
    ("br", "abcdefghijklmnopqrstuvwxyz"), ("bs", "abcefhijklmnopqrstuvwxy"),
    ("bt", "abcdefghijklmnopqrstuvwxyz"), ("bu", "abcdefghijklmnopqrstuvwxyz"),
    ("bv", "abcdefghijklmnopqrtuvwxyz"), ("bw", "abcdefghijklmnopqrstuwxyz"),
    ("bx", "abcfghijklmnopqrsuvwz"), ("by", "abcdefghijklmnpqrstvwxyz"),
    ("bz", "abcdefhijklmnopqrstuvwxyz"), ("ca", "abcdefghijklmnopqrstvwxyz"),
    ("cb", "abcdeghijklnoqrstuvwy"), ("cc", "acdeghjlmnopqrs"), ("cd", "cdefghijmnorsz"),
    ("ce", "abgklnsty"), ("cf", "adgm"), ("cg", "acgk"), ("ch", "abcdefghijklmnopqrtuvwxyz"),
    ("ci", "abcehmnprwy"), ("cj", "aehikmnoprsvy"), ("ck", "ablmnoqrstuvxyz"),
    ("cl", "acdehijklmostuwy"), ("cm", "acegiklnorst"), ("cn", "abcghiklopqrstuwx"),
    ("co", "abcdefghjklmnopqrstuwxyz"), ("cp", "abcefginopsuxy"), ("cq", "du"),
    ("cr", "abcdefghijklmnopqrstvwxyz"), ("cs", "abcdefghijklmnopqrstuvwxyz"),
    ("ct", "acdeghlmnopstuyz"), ("cu", "abchijklmopqstuvxy"), ("cv", "gn"), ("cw", "abdegt"),
    ("cx", "h"), ("cy", "abmo"), ("cz", "ehknt"), ("da", "acdefghijklmnopqrsuvwxyz"),
    ("db", "abdefgijlmnopqtuvwy"), ("dc", "cr"), ("dd", "adegijnorsw"),
    ("de", "cdefghiklmnpqrsuvz"), ("dg", "abcdeghiklnorstuwxz"), ("dh", "dgilmnorsuvwx"),
    ("di", "abcdfghijklnopqrstuvwxyz"), ("dj", "abcdefijklmnoruw"), ("dk", "agklrsx"),
    ("dl", "gmn"), ("dm", "abcdefgklmnorsuvwxy"), ("dn", "adegijknortuvwy"),
    ("do", "abcefhiklnopqrstvwxy"), ("dp", "p"), ("dr", "aceghilnoqrstuwy"), ("ds", "behiklnoqz"),
    ("dt", "abdhikmoprstuy"), ("du", "abcdefghijklmnopqrstuvwxyz"), ("dv", "a"),
    ("dw", "aklrsuwyz"), ("dy", "abdgimnoruy"), ("dz", "adeglno"), ("ea", "a"), ("eb", "cgkoru"),
    ("ec", "rsy"), ("ef", "aei"), ("eg", "almoxy"), ("eh", "su"), ("ei", "ptv"), ("ej", "a"),
    ("ek", "aegiklmopry"), ("el", "eklmopux"), ("em", "abegikmnpsuwxz"),
    ("en", "abcdfghlmnoqrvwx"), ("eo", "t"), ("ep", "io"), ("er", "aghikrstw"),
    ("es", "eghiklmnostuxy"), ("et", "bhnorstuxz"), ("eu", "dqs"), ("ev", "ehn"), ("ew", "eo"),
    ("ex", "t"), ("ey", "ao"), ("ez", "ae"), ("fa", "abdfghijklmnoprstuxyz"), ("fb", "l"),
    ("fc", "s"), ("fe", "r"), ("ff", "im"), ("fg", "r"), ("fi", "aefjlnprtuw"), ("fk", "kv"),
    ("fl", "ahilnry"), ("fm", "pu"), ("fn", "bgi"), ("fo", "dimnrsx"), ("fp", "e"), ("fq", "s"),
    ("fr", "acdekmopqrsty"), ("fs", "els"), ("fu", "bcdefhilmnqrtuvy"), ("fv", "r"), ("fw", "ae"),
    ("ga", "abcdefghijklmnopqrstuvwxyz"), ("gb", "abcdefghijklmnopqrsuvwxyz"), ("gc", "cdflnrt"),
    ("gd", "bcdefghijklmnoqrstux"), ("ge", "abcdfghijklmoqrsvwxyz"), ("gf", "kx"),
    ("gg", "abdegklnortuw"), ("gh", "aceknorst"), ("gi", "abcdeghlmnopqrstxyz"), ("gj", "kmnru"),
    ("gk", "adenopu"), ("gl", "abcdeghijkloruvw"), ("gm", "abdeghlmnqruvwxyz"),
    ("gn", "abcdeghijklmnoqrtuwz"), ("go", "abcdefghijklmnopqrstuvwxy"), ("gp", "aen"),
    ("gq", "anr"), ("gr", "abcdeghijkmnqrstuvwxyz"), ("gs", "eglmnopsw"), ("gt", "aiu"),
    ("gu", "abcdefghijklmnopqrstuvwxz"), ("gv", "acefjlmnoprsy"), ("gw", "abcdefgijmnrtuwx"),
    ("gx", "x"), ("gy", "abdefgilmnoryz"), ("gz", "ain"), ("ha", "abcdefghijklmnopqrstuvwxyz"),
    ("hb", "abnosu"), ("hc", "h"), ("hd", "nsy"), ("he", "abdghimr"), ("hg", "mw"), ("hh", "iry"),
    ("hi", "abdfghijklmnortwx"), ("hj", "i"), ("hk", "aehks"), ("hl", "abdtu"),
    ("hm", "abcdefghijklmnopqrstuvwxyz"), ("hn", "adeghijmnos"), ("ho", "abcdehijklmoprstvwy"),
    ("hp", "os"), ("hr", "acekmoprtuvwxz"), ("hs", "bhlns"), ("ht", "iosux"),
    ("hu", "bcdefghiklmnpqrstuvwxyz"), ("hv", "ceknv"), ("hw", "aco"), ("hy", "aewx"),
    ("ia", "inr"), ("ib", "abdeghilmnoruy"), ("ic", "aehlr"), ("id", "abcdeiorstu"),
    ("if", "abefkmuy"), ("ig", "beglmnosw"), ("ih", "bipw"), ("ii", "inr"), ("ij", "cejnos"),
    ("ik", "ehikloprstuvwxz"), ("il", "abegiklmopsuvw"), ("im", "ilnorsty"),
    ("in", "abcdeghjlnopst"), ("io", "ruw"), ("ip", "iko"), ("iq", "uw"), ("ir", "aehiknouxy"),
    ("is", "acdeghiklmnortu"), ("it", "abcdeiklmorstvwxyz"), ("iu", "m"), ("iv", "bv"),
    ("iw", "kmos"), ("ix", "cl"), ("iy", "aox"), ("iz", "himrz"),
    ("ja", "abcdefhjklmnoqrstuvwxyz"), ("jb", "eijkmnortuw"), ("jc", "st"), ("jd", "agt"),
    ("je", "beghiklnrtu"), ("jg", "beko"), ("jh", "is"), ("ji", "abcdeglmtuvy"), ("jj", "er"),
    ("jk", "amosu"), ("jl", "es"), ("jm", "abcdilnrswx"), ("jn", "adgijls"), ("jo", "bdgrsw"),
    ("jp", "anrx"), ("jq", "r"), ("jr", "abrtu"), ("js", "l"), ("ju", "abdhiklmnoprstuwy"),
    ("jv", "dn"), ("jw", "i"), ("jy", "aey"), ("ka", "abcdeghijklmnopqrstuvwxyz"),
    ("kb", "abcdeghijklmnopqrstuvwxyz"), ("kc", "abcdefghijklmnopqrstuvwxyz"),
    ("kd", "acdefghijklmnopqrtuvwxyz"), ("ke", "abcdefghijklmnopqrstuvwxyz"),
    ("kf", "abcdefghijklmnopqrstuvwxyz"), ("kg", "abcdefghijklmnopqrstuvwxy"),
    ("kh", "abcdefghijklmnopqrstuvwxyz"), ("ki", "abcdefghijklmnopqrstuvwxyz"),
    ("kj", "abcdefghijklmnopqrstuvxyz"), ("kk", "abcdefghijklmnopqrstuvwxyz"),
    ("kl", "abcdefghijklmnopqrstuvwxyz"), ("km", "abcdefghijklmnopqrstuvwxyz"),
    ("kn", "abcdefgijklmnopqrstuvwxyz"), ("ko", "abcdefghijklmnopqrstuvwxyz"),
    ("kp", "abcdefghijklmnopqrstuvwxyz"), ("kq", "abcdefghijklmnopqrstuvwxyz"),
    ("kr", "abcdefhijklmnoprstuvwxyz"), ("ks", "abcdefghijklmnopqrstuvwxyz"),
    ("kt", "abcdefghijklmnopqrstuvwxyz"), ("ku", "abcdefghijklmnopqrstuvwxyz"),
    ("kv", "abcdefghijklmnopqrstuvwxyz"), ("kw", "abcdefghijklmnopqrstuvwxyz"),
    ("kx", "abcdefijklmnopqrstuvwxyz"), ("ky", "abcdefghijklmnopqrstuvwxyz"),
    ("kz", "abcdefghijklmnopqrstuvwxyz"), ("la", "abcdefghijklmnopqrstuvwxz"),
    ("lb", "bcefgijklmnoqrstuvwxyz"), ("lc", "cdefhlmpqs"), ("ld", "abdghijklmnopq"),
    ("le", "abcdefghijklmnopqrstuvwxyz"), ("lf", "an"), ("lg", "abghiklmnoqrstuz"),
    ("lh", "ahimnstu"), ("li", "abcdefghijklmnopqrstuvwxyz"), ("lj", "aeilpwx"),
    ("lk", "abcdehijlmnorstuy"), ("ll", "abcdefghijklmnopqsux"),
    ("lm", "abcdefghijklmnopqruvwxyz"), ("ln", "abdghijlmnosuwz"),
    ("lo", "abceghijklmnopqrstuwxyz"), ("lp", "aenox"), ("lq", "r"), ("lr", "acgiklmnotvz"),
    ("ls", "abcdeghilmnoprstvwy"), ("lt", "cghinosuz"), ("lu", "abcdefghijklmnopqrstuvwyz"),
    ("lv", "aiklsu"), ("lw", "aeghlmotw"), ("lx", "m"), ("ly", "an"), ("lz", "hlnz"),
    ("ma", "abcdefghijklmnopqrstuvwxyz"), ("mb", "abcdefhijklmnopqrstuvwxyz"),
    ("mc", "abcdefghijklmnopqrstuvwxyz"), ("md", "abcdefghijklmnpqrstuvwxyz"),
    ("me", "abcdefghijklmnopqrstuvwyz"), ("mf", "abcdefghijklmnopqrstuvwxyz"),
    ("mg", "abcdefghijklmnopqrstuvwxyz"), ("mh", "abcdefghijklmnopqrstuwxyz"),
    ("mi", "abcdefghijklmnopqrstuwxyz"), ("mj", "abcdeghijklmnopqrstuvwxyz"),
    ("mk", "abcdefghijklmnopqrstuvwxyz"), ("ml", "abcdefghijklmnoprstuvwxz"),
    ("mm", "abcdefghijklmnopqrtuvwxyz"), ("mn", "abcdefghijklmnopqrstuvwxyz"),
    ("mo", "acdefghijklmnopqrstuvwxyz"), ("mp", "abcdeghijklmnopqrstuvwxyz"),
    ("mq", "abcdefghijklmnopqrstuvwxyz"), ("mr", "abcdefghijklmnopqrstuvwxyz"),
    ("ms", "abcdefghijklmnopqrstuvwxyz"), ("mt", "abcdefghijklmnopqrstuvwxy"),
    ("mu", "abcdeghijklmnopqrstuvxyz"), ("mv", "abdefghklmnopqrstuvwxyz"),
    ("mw", "abcdefghijklmnopqrstuvwxyz"), ("mx", "abcdefghijklmnopqrstuvwxyz"),
    ("my", "abcdefghijklmnprstuvwxyz"), ("mz", "abcdeghijklmnopqrstuvwxyz"),
    ("na", "abcdefghijklmnopqrstuvwxyz"), ("nb", "abcdefhijklmnopqrstuvwxy"),
    ("nc", "abcdefghijklmnopqrstuxz"), ("nd", "abcdefghijklmnopqrstuvwxyz"),
    ("ne", "abcdefghijkmnopqrstuvwxyz"), ("nf", "adlru"), ("ng", "abcdefghijklmnopqrstuvwxyz"),
    ("nh", "abcdefghikmnopqrtuvwxyz"), ("ni", "abcdefghijklmnoqrstuvwxyz"),
    ("nj", "abdhijlmnorstuxyz"), ("nk", "abcdefghijkmnopqrstuvwxyz"),
    ("nl", "acdegijklmnoqruvwxyz"), ("nm", "abcdefghijklmnopqrstuvwxz"),
    ("nn", "abcdefghijklmnopqrstuvwxyz"), ("no", "abcdefghijklmnopqrstuvwyz"),
    ("np", "abghilnosuxy"), ("nq", "gklmnoqty"), ("nr", "abcefgiklmnptuxz"),
    ("ns", "abcdefghiklmnopqrstuvwxyz"), ("nt", "degijkmoprsuxyz"),
    ("nu", "abcdefghijklmnopqrstuvwxyz"), ("nv", "hmo"), ("nw", "bcegimorwx"),
    ("nx", "adegiklnoqrux"), ("ny", "abcdefghijklmnopqrstuvwxy"), ("nz", "abdikmrsuyz"),
    ("oa", "acrv"), ("ob", "iklmortu"), ("oc", "aiou"), ("od", "aktu"), ("of", "su"),
    ("og", "bcgou"), ("oh", "tu"), ("oi", "aen"), ("oj", "bcgisvw"), ("ok", "abcdegiklmorsuvxz"),
    ("ol", "adekmortu"), ("om", "abcgiklopqrtuvwx"), ("on", "aegijknoprstux"), ("oo", "dnr"),
    ("op", "akmoty"), ("or", "acegimnorstuvwxyz"), ("os", "aciopstux"),
    ("ot", "abdeiklmnoqrstuwxyz"), ("ou", "beimn"), ("ov", "d"), ("ow", "il"), ("oy", "bdmy"),
    ("oz", "m"), ("pa", "abcdefghiklmnopqrstuvwxyz"), ("pb", "bcefghilmnoprstuvy"),
    ("pc", "abcdefghijkmnprw"), ("pd", "acnotu"), ("pe", "abdefgijklmopqrsvxyz"), ("pf", "ael"),
    ("pg", "adgiklnsuz"), ("ph", "dghiklmnortuvw"), ("pi", "abcdefghijlmnoprstuvwxyz"),
    ("pj", "t"), ("pk", "abghnoprsu"), ("pl", "abcdefghijklnoqrstuvwz"),
    ("pm", "abcdefhijklmnoqrstuwxyz"), ("pn", "abcdeghijklmnopqrstvwyz"),
    ("po", "cdefghiklmnopqrstvwxyz"), ("pp", "aeiklmnopqrst"), ("pq", "aemw"),
    ("pr", "acdefghiklmopqrstuwxyz"), ("ps", "acdeghilmnopqrstuw"), ("pt", "ahinoprtuv"),
    ("pu", "abcdefgijkmopqrstuwxyz"), ("pw", "abgmnorw"), ("px", "m"), ("py", "emnsuxy"),
    ("pz", "ehn"), ("qu", "abcdefgiklmnpqrsvwxyz"), ("qv", "acehijlmnopswz"), ("qw", "acehmst"),
    ("qx", "achlnopqrtuw"), ("qy", "ap"), ("ra", "abcdfghijkmnopqrstuvwxyz"), ("rb", "bklp"),
    ("rc", "f"), ("rd", "b"), ("re", "abegijlmnsty"), ("rg", "anrsu"), ("rh", "gp"),
    ("ri", "abeflmnrtu"), ("rj", "gis"), ("rk", "abhimtw"), ("rm", "abcdefghiklmnopqrstuvwxyz"),
    ("rn", "bdglnrw"), ("ro", "abcdefghlmnopruw"), ("rp", "nt"), ("rr", "imot"), ("rs", "iklmnw"),
    ("rt", "chmw"), ("ru", "bcefgikmnopqstuyz"), ("rw", "aklmor"), ("rx", "dw"), ("ry", "u"),
    ("sa", "abcdefghijklmnopqrstuvwxyz"), ("sb", "abcdeghijklmnopqrstuvwxyz"),
    ("sc", "abcefghiklnoprstuvwx"), ("sd", "abcefghjklnopqrsuvx"),
    ("se", "abcdefghijklmnopqrstuvwyz"), ("sf", "bemsw"), ("sg", "abcdeghijklmnprstuwxyz"),
    ("sh", "abcdeghijklmnopqrstuvwxyz"), ("si", "abdefghijklmnopqrstuvwxyz"),
    ("sj", "abcdegklmnprstuw"), ("sk", "abcdefghijkmnopqrstuvwxyz"),
    ("sl", "abcdefghijklmnopqrstuvwxyz"), ("sm", "abcdefghijklnopqrstuvwxyz"),
    ("sn", "abcdefghijklmnopqrsuvwxyz"), ("so", "abcdeghiklmnopqrstuvwxyz"),
    ("sp", "abcdegiklmnopqrstvxy"), ("sq", "ahijkmnoqrstux"), ("sr", "abcdefghiklmnopqrstuvwxyz"),
    ("ss", "abcdefghijklmnopqrstuvwxyz"), ("st", "abdefghijklmnopqrstuvwy"),
    ("su", "abcegijklmnoqrstvwxyz"), ("sv", "abcekmsx"), ("sw", "abcefghijklmopqrstuvwxy"),
    ("sx", "bceklnorsuw"), ("sy", "abcdiklmnorswxy"), ("sz", "abcdglnpsvwy"),
    ("ta", "abcdefghijklmnopqrstuvwxyz"), ("tb", "abcdefghijklmnopqrstuvwxyz"),
    ("tc", "abcdefghiklmnopqsuwxyz"), ("td", "abcdeghijklmnoqrstuvxy"),
    ("te", "abcdefghiklmnopqrstuvwxyz"), ("tf", "inort"), ("tg", "abcdefghijklnopqrstuvwxyz"),
    ("th", "acdefhiklmnpqrstuvwxyz"), ("ti", "bcdefghijklmnopqrstuvwxyz"), ("tj", "agijlnopsuw"),
    ("tk", "abdefgklmpqrstuvwxz"), ("tl", "abcdefghijklmnopqrstuvwxy"),
    ("tm", "abcdefghijklmnopqrstuvwyz"), ("tn", "abcdefghiklmnopqrstvwxyz"),
    ("to", "bcdefghijklmnopqrsuvwxyz"), ("tp", "acefgijklmnprtuvwxyz"), ("tq", "blmnoptuw"),
    ("tr", "abcefghijklmnopqrstuvwxyz"), ("ts", "abcdefghijlmnopqrstuvwxyz"),
    ("tt", "bcdefhijklmnopqrstuvwyz"), ("tu", "abcdefghijklmnopqrstuvwxyz"),
    ("tv", "adeiklmnostuwx"), ("tw", "abdefghilmnopqrtuwxy"), ("tx", "aceghijmnoqrstuxy"),
    ("ty", "aehijlnprstuvxyz"), ("tz", "ahjlmnox"), ("ua", "mr"), ("ub", "ailruy"),
    ("ud", "aegijlmu"), ("ue", "s"), ("uf", "i"), ("ug", "abehnoy"), ("uh", "an"), ("ui", "gsv"),
    ("uj", "i"), ("uk", "aghiklpqrsuvwy"), ("ul", "abcefikmnuwy"), ("um", "abcdgimnoprsu"),
    ("un", "adegikmnpruxz"), ("uo", "kn"), ("up", "iv"), ("ur", "abcdefghijkmnoprtuvwxyz"),
    ("us", "ahikpsu"), ("ut", "aehpru"), ("uu", "mr"), ("uv", "ehl"), ("uw", "a"), ("uy", "a"),
    ("uz", "bns"), ("va", "aefghijlmnoprsuvy"), ("vb", "bk"), ("ve", "cmnopr"), ("vg", "rt"),
    ("vi", "cdefglntv"), ("vj", "k"), ("vk", "ajklmnoptuz"), ("vl", "ps"),
    ("vm", "abcdefghijklmpqrsuwxyz"), ("vn", "kmp"), ("vo", "lrt"), ("vr", "aost"), ("vs", "ilv"),
    ("vt", "o"), ("vu", "mnt"), ("vw", "a"), ("wa", "abcdefghijklmnpqrstuvwxyz"),
    ("wb", "abefhijklmpqrstvw"), ("wc", "ai"), ("wd", "dgjktuy"), ("we", "cdghilmnoprstuw"),
    ("wf", "g"), ("wg", "abgiouwy"), ("wh", "agku"), ("wi", "bcefghijklmnrtuvwy"), ("wj", "ai"),
    ("wk", "adrwy"), ("wl", "aeghimnorsuvwx"), ("wm", "abcdehimnostwx"), ("wn", "bcdegikmnopuwy"),
    ("wo", "abcdefgiklmnorsw"), ("wp", "c"), ("wr", "bghiklmoprsuvwxz"), ("ws", "agikrsuv"),
    ("wt", "bfhikmw"), ("wu", "abdlmnrtuvxy"), ("ww", "aborw"), ("wx", "w"), ("wy", "bimnry"),
    ("xa", "abcdegijklmnopqrstuvwy"), ("xb", "abcdegijmnoprwxy"), ("xc", "bceghlmnortuvwy"),
    ("xd", "ackmoqy"), ("xe", "bdgmprstu"), ("xf", "a"), ("xg", "abdfgilmnruw"),
    ("xh", "acdemortuv"), ("xi", "abilnprsvy"), ("xj", "bt"), ("xk", "abcdefghijlnpqrstuvwxyz"),
    ("xl", "abcdeginopsuy"), ("xm", "abcdefghijklmnopqrstuvwxyz"), ("xn", "abdgijkmnqrtuyz"),
    ("xo", "cdgikmnoprw"), ("xp", "abcdefghijklmnopqrstuvwxyz"), ("xr", "abdegimnqrtuw"),
    ("xs", "abcdehijlmnopqrsuvy"), ("xt", "abcdeghijlmnopqrstuvwyz"), ("xu", "bdjlmnortu"),
    ("xv", "einos"), ("xw", "acdejklortw"), ("xx", "bkmrt"), ("xy", "abjklty"), ("xz", "hmp"),
    ("ya", "abcdefghijklmnopqrstuvwxyz"), ("yb", "abdehijlmnoxy"), ("yc", "lnpr"),
    ("yd", "adegks"), ("ye", "aceijlnrstuvy"), ("yg", "ailmprsuw"), ("yh", "dls"),
    ("yi", "adfghijklmpqrstuvxyz"), ("yk", "aghiklmnortuy"), ("yl", "abegilmnoruy"),
    ("ym", "abcdeghiklmnopqrstxz"), ("yn", "abdegklqsu"), ("yo", "bgiklmnrsty"),
    ("yp", "abghkmnopz"), ("yr", "abeklmoswy"), ("ys", "dglnoprsy"), ("yt", "alpwy"),
    ("yu", "abcdefgijklmnpqrtuwxyz"), ("yv", "at"), ("yw", "agnqruw"), ("yx", "aglmuy"),
    ("yy", "ru"), ("yz", "gk"), ("za", "abcdefghijklmopqrstuvwxyz"), ("zb", "aceltuw"),
    ("zc", "ah"), ("zd", "j"), ("ze", "aghmn"), ("zg", "abhmnr"), ("zh", "abdinowx"),
    ("zi", "abklmnrwz"), ("zk", "abdghknoptuvz"), ("zl", "aejmnqsuw"),
    ("zm", "abcdefghijklmnopqrstuvwxyz"), ("zn", "adegks"), ("zo", "chmoqrs"),
    ("zp", "abcdefghijklmnopqrstuvwxyz"), ("zq", "e"), ("zr", "agnops"), ("zs", "aklmru"),
    ("zt", "eglmnpqstuxy"), ("zu", "hlmny"), ("zw", "a"), ("zx", "x"), ("zy", "bgjnp"),
    ("zz", "aj")]

/-- Names that have been replaced, each with the one in use. -/
def replacedLanguages : List (String × String) :=
  [("adp", "dz"), ("alb", "sq"), ("arm", "hy"), ("baq", "eu"), ("bur", "my"), ("chi", "zh"),
    ("cze", "cs"), ("drw", "fa"), ("dut", "nl"), ("fre", "fr"), ("geo", "ka"), ("ger", "de"),
    ("gre", "el"), ("ice", "is"), ("in", "id"), ("iw", "he"), ("ji", "yi"), ("jw", "jv"),
    ("mac", "mk"), ("mao", "mi"), ("may", "ms"), ("mo", "ro"), ("per", "fa"), ("prs", "fa"),
    ("rum", "ro"), ("scc", "sr"), ("scr", "hr"), ("sh", "sr"), ("slo", "sk"), ("tib", "bo"),
    ("tl", "fil"), ("tnf", "fa"), ("tw", "ak"), ("wel", "cy")]

/-- Whether a name of three letters in lower case is set aside for private use: `qaa` to `qtz`. -/
def isPrivateLanguage (name : String) : Bool :=
  match name.toList with
  | [first, second, third] =>
      first == 'q' && 'a' ≤ second && second ≤ 't' && 'a' ≤ third && third ≤ 'z'
  | _ => false

/-- Whether a name of three letters in lower case is registered. -/
def isLongLanguage (name : String) : Bool :=
  isPrivateLanguage name ||
    match name.toList with
    | [first, second, third] =>
        longLanguages.any fun row =>
          row.1 == String.ofList [first, second] && row.2.toList.contains third
    | _ => false

/-- The language of a name in lower case, under its shortest name, if it is registered. -/
def language? (name : String) : Option String :=
  match shortLanguages.find? fun row => row.1 == name || row.2 == name with
  | some row => some row.1
  | none => if oldShortLanguages.contains name || isLongLanguage name then some name else none

/-- The name in use for a language. -/
def currentLanguage (name : String) : String :=
  (replacedLanguages.lookup name).getD name

/-!
## The register of regions

A region has a name of two letters, and most have one of three letters and a number as well. Groups
of regions, such as continents, have only a number.
-/

/-- The names of a region. -/
structure RegionNames where
  /-- Two letters. -/
  short : String
  /-- Three letters; empty if there is no such name. -/
  long : String
  /-- The number; zero if there is none. -/
  number : Nat
deriving DecidableEq, Repr

/-- The regions. -/
def regions : List RegionNames :=
  [⟨"AA", "AAA", 958⟩, ⟨"AC", "ASC", 0⟩, ⟨"AD", "AND", 20⟩, ⟨"AE", "ARE", 784⟩, ⟨"AF", "AFG", 4⟩,
    ⟨"AG", "ATG", 28⟩, ⟨"AI", "AIA", 660⟩, ⟨"AL", "ALB", 8⟩, ⟨"AM", "ARM", 51⟩, ⟨"AN", "ANT", 0⟩,
    ⟨"AO", "AGO", 24⟩, ⟨"AQ", "ATA", 10⟩, ⟨"AR", "ARG", 32⟩, ⟨"AS", "ASM", 16⟩, ⟨"AT", "AUT", 40⟩,
    ⟨"AU", "AUS", 36⟩, ⟨"AW", "ABW", 533⟩, ⟨"AX", "ALA", 248⟩, ⟨"AZ", "AZE", 31⟩,
    ⟨"BA", "BIH", 70⟩, ⟨"BB", "BRB", 52⟩, ⟨"BD", "BGD", 50⟩, ⟨"BE", "BEL", 56⟩, ⟨"BF", "BFA", 854⟩,
    ⟨"BG", "BGR", 100⟩, ⟨"BH", "BHR", 48⟩, ⟨"BI", "BDI", 108⟩, ⟨"BJ", "BEN", 204⟩,
    ⟨"BL", "BLM", 652⟩, ⟨"BM", "BMU", 60⟩, ⟨"BN", "BRN", 96⟩, ⟨"BO", "BOL", 68⟩,
    ⟨"BQ", "BES", 535⟩, ⟨"BR", "BRA", 76⟩, ⟨"BS", "BHS", 44⟩, ⟨"BT", "BTN", 64⟩, ⟨"BU", "BUR", 0⟩,
    ⟨"BV", "BVT", 74⟩, ⟨"BW", "BWA", 72⟩, ⟨"BY", "BLR", 112⟩, ⟨"BZ", "BLZ", 84⟩,
    ⟨"CA", "CAN", 124⟩, ⟨"CC", "CCK", 166⟩, ⟨"CD", "COD", 180⟩, ⟨"CF", "CAF", 140⟩,
    ⟨"CG", "COG", 178⟩, ⟨"CH", "CHE", 756⟩, ⟨"CI", "CIV", 384⟩, ⟨"CK", "COK", 184⟩,
    ⟨"CL", "CHL", 152⟩, ⟨"CM", "CMR", 120⟩, ⟨"CN", "CHN", 156⟩, ⟨"CO", "COL", 170⟩,
    ⟨"CP", "CPT", 0⟩, ⟨"CQ", "", 0⟩, ⟨"CR", "CRI", 188⟩, ⟨"CS", "SCG", 0⟩, ⟨"CT", "CTE", 0⟩,
    ⟨"CU", "CUB", 192⟩, ⟨"CV", "CPV", 132⟩, ⟨"CW", "CUW", 531⟩, ⟨"CX", "CXR", 162⟩,
    ⟨"CY", "CYP", 196⟩, ⟨"CZ", "CZE", 203⟩, ⟨"DD", "DDR", 0⟩, ⟨"DE", "DEU", 276⟩, ⟨"DG", "DGA", 0⟩,
    ⟨"DJ", "DJI", 262⟩, ⟨"DK", "DNK", 208⟩, ⟨"DM", "DMA", 212⟩, ⟨"DO", "DOM", 214⟩,
    ⟨"DY", "DHY", 0⟩, ⟨"DZ", "DZA", 12⟩, ⟨"EA", "", 0⟩, ⟨"EC", "ECU", 218⟩, ⟨"EE", "EST", 233⟩,
    ⟨"EG", "EGY", 818⟩, ⟨"EH", "ESH", 732⟩, ⟨"ER", "ERI", 232⟩, ⟨"ES", "ESP", 724⟩,
    ⟨"ET", "ETH", 231⟩, ⟨"EU", "QUU", 967⟩, ⟨"EZ", "", 0⟩, ⟨"FI", "FIN", 246⟩, ⟨"FJ", "FJI", 242⟩,
    ⟨"FK", "FLK", 238⟩, ⟨"FM", "FSM", 583⟩, ⟨"FO", "FRO", 234⟩, ⟨"FQ", "", 0⟩,
    ⟨"FR", "FRA", 250⟩, ⟨"FX", "FXX", 0⟩, ⟨"GA", "GAB", 266⟩, ⟨"GB", "GBR", 826⟩,
    ⟨"GD", "GRD", 308⟩, ⟨"GE", "GEO", 268⟩, ⟨"GF", "GUF", 254⟩, ⟨"GG", "GGY", 831⟩,
    ⟨"GH", "GHA", 288⟩, ⟨"GI", "GIB", 292⟩, ⟨"GL", "GRL", 304⟩, ⟨"GM", "GMB", 270⟩,
    ⟨"GN", "GIN", 324⟩, ⟨"GP", "GLP", 312⟩, ⟨"GQ", "GNQ", 226⟩, ⟨"GR", "GRC", 300⟩,
    ⟨"GS", "SGS", 239⟩, ⟨"GT", "GTM", 320⟩, ⟨"GU", "GUM", 316⟩, ⟨"GW", "GNB", 624⟩,
    ⟨"GY", "GUY", 328⟩, ⟨"HK", "HKG", 344⟩, ⟨"HM", "HMD", 334⟩, ⟨"HN", "HND", 340⟩,
    ⟨"HR", "HRV", 191⟩, ⟨"HT", "HTI", 332⟩, ⟨"HU", "HUN", 348⟩, ⟨"HV", "HVO", 0⟩, ⟨"IC", "", 0⟩,
    ⟨"ID", "IDN", 360⟩, ⟨"IE", "IRL", 372⟩, ⟨"IL", "ISR", 376⟩, ⟨"IM", "IMN", 833⟩,
    ⟨"IN", "IND", 356⟩, ⟨"IO", "IOT", 86⟩, ⟨"IQ", "IRQ", 368⟩, ⟨"IR", "IRN", 364⟩,
    ⟨"IS", "ISL", 352⟩, ⟨"IT", "ITA", 380⟩, ⟨"JE", "JEY", 832⟩, ⟨"JM", "JAM", 388⟩,
    ⟨"JO", "JOR", 400⟩, ⟨"JP", "JPN", 392⟩, ⟨"JT", "JTN", 0⟩, ⟨"KE", "KEN", 404⟩,
    ⟨"KG", "KGZ", 417⟩, ⟨"KH", "KHM", 116⟩, ⟨"KI", "KIR", 296⟩, ⟨"KM", "COM", 174⟩,
    ⟨"KN", "KNA", 659⟩, ⟨"KP", "PRK", 408⟩, ⟨"KR", "KOR", 410⟩, ⟨"KW", "KWT", 414⟩,
    ⟨"KY", "CYM", 136⟩, ⟨"KZ", "KAZ", 398⟩, ⟨"LA", "LAO", 418⟩, ⟨"LB", "LBN", 422⟩,
    ⟨"LC", "LCA", 662⟩, ⟨"LI", "LIE", 438⟩, ⟨"LK", "LKA", 144⟩, ⟨"LR", "LBR", 430⟩,
    ⟨"LS", "LSO", 426⟩, ⟨"LT", "LTU", 440⟩, ⟨"LU", "LUX", 442⟩, ⟨"LV", "LVA", 428⟩,
    ⟨"LY", "LBY", 434⟩, ⟨"MA", "MAR", 504⟩, ⟨"MC", "MCO", 492⟩, ⟨"MD", "MDA", 498⟩,
    ⟨"ME", "MNE", 499⟩, ⟨"MF", "MAF", 663⟩, ⟨"MG", "MDG", 450⟩, ⟨"MH", "MHL", 584⟩,
    ⟨"MI", "MID", 0⟩, ⟨"MK", "MKD", 807⟩, ⟨"ML", "MLI", 466⟩, ⟨"MM", "MMR", 104⟩,
    ⟨"MN", "MNG", 496⟩, ⟨"MO", "MAC", 446⟩, ⟨"MP", "MNP", 580⟩, ⟨"MQ", "MTQ", 474⟩,
    ⟨"MR", "MRT", 478⟩, ⟨"MS", "MSR", 500⟩, ⟨"MT", "MLT", 470⟩, ⟨"MU", "MUS", 480⟩,
    ⟨"MV", "MDV", 462⟩, ⟨"MW", "MWI", 454⟩, ⟨"MX", "MEX", 484⟩, ⟨"MY", "MYS", 458⟩,
    ⟨"MZ", "MOZ", 508⟩, ⟨"NA", "NAM", 516⟩, ⟨"NC", "NCL", 540⟩, ⟨"NE", "NER", 562⟩,
    ⟨"NF", "NFK", 574⟩, ⟨"NG", "NGA", 566⟩, ⟨"NH", "NHB", 0⟩, ⟨"NI", "NCA", 558⟩,
    ⟨"NL", "NLD", 528⟩, ⟨"NO", "NOR", 578⟩, ⟨"NP", "NPL", 524⟩, ⟨"NQ", "ATN", 0⟩,
    ⟨"NR", "NRU", 520⟩, ⟨"NT", "NTZ", 0⟩, ⟨"NU", "NIU", 570⟩, ⟨"NZ", "NZL", 554⟩,
    ⟨"OM", "OMN", 512⟩, ⟨"PA", "PAN", 591⟩, ⟨"PC", "PCI", 0⟩, ⟨"PE", "PER", 604⟩,
    ⟨"PF", "PYF", 258⟩, ⟨"PG", "PNG", 598⟩, ⟨"PH", "PHL", 608⟩, ⟨"PK", "PAK", 586⟩,
    ⟨"PL", "POL", 616⟩, ⟨"PM", "SPM", 666⟩, ⟨"PN", "PCN", 612⟩, ⟨"PR", "PRI", 630⟩,
    ⟨"PS", "PSE", 275⟩, ⟨"PT", "PRT", 620⟩, ⟨"PU", "PUS", 0⟩, ⟨"PW", "PLW", 585⟩,
    ⟨"PY", "PRY", 600⟩, ⟨"PZ", "PCZ", 0⟩, ⟨"QA", "QAT", 634⟩, ⟨"QM", "QMM", 959⟩,
    ⟨"QN", "QNN", 960⟩, ⟨"QO", "QOO", 0⟩, ⟨"QP", "QPP", 962⟩, ⟨"QQ", "QQQ", 963⟩,
    ⟨"QR", "QRR", 964⟩, ⟨"QS", "QSS", 965⟩, ⟨"QT", "QTT", 966⟩, ⟨"QU", "QUU", 0⟩,
    ⟨"QV", "QVV", 968⟩, ⟨"QW", "QWW", 969⟩, ⟨"QX", "QXX", 970⟩, ⟨"QY", "QYY", 971⟩,
    ⟨"QZ", "QZZ", 972⟩, ⟨"RE", "REU", 638⟩, ⟨"RH", "RHO", 0⟩, ⟨"RO", "ROU", 642⟩,
    ⟨"RS", "RRB", 688⟩, ⟨"RU", "RUS", 643⟩, ⟨"RW", "RWA", 646⟩, ⟨"SA", "SAU", 682⟩,
    ⟨"SB", "SLB", 90⟩, ⟨"SC", "SYC", 690⟩, ⟨"SD", "SDN", 729⟩, ⟨"SE", "SWE", 752⟩,
    ⟨"SG", "SGP", 702⟩, ⟨"SH", "SHN", 654⟩, ⟨"SI", "SVN", 705⟩, ⟨"SJ", "SJM", 744⟩,
    ⟨"SK", "SVK", 703⟩, ⟨"SL", "SLE", 694⟩, ⟨"SM", "SMR", 674⟩, ⟨"SN", "SEN", 686⟩,
    ⟨"SO", "SOM", 706⟩, ⟨"SR", "SUR", 740⟩, ⟨"SS", "SSD", 728⟩, ⟨"ST", "STP", 678⟩,
    ⟨"SU", "SUN", 0⟩, ⟨"SV", "SLV", 222⟩, ⟨"SX", "SXM", 534⟩, ⟨"SY", "SYR", 760⟩,
    ⟨"SZ", "SWZ", 748⟩, ⟨"TA", "TAA", 0⟩, ⟨"TC", "TCA", 796⟩, ⟨"TD", "TCD", 148⟩,
    ⟨"TF", "ATF", 260⟩, ⟨"TG", "TGO", 768⟩, ⟨"TH", "THA", 764⟩, ⟨"TJ", "TJK", 762⟩,
    ⟨"TK", "TKL", 772⟩, ⟨"TL", "TLS", 626⟩, ⟨"TM", "TKM", 795⟩, ⟨"TN", "TUN", 788⟩,
    ⟨"TO", "TON", 776⟩, ⟨"TP", "TMP", 0⟩, ⟨"TR", "TUR", 792⟩, ⟨"TT", "TTO", 780⟩,
    ⟨"TV", "TUV", 798⟩, ⟨"TW", "TWN", 158⟩, ⟨"TZ", "TZA", 834⟩, ⟨"UA", "UKR", 804⟩,
    ⟨"UG", "UGA", 800⟩, ⟨"UK", "", 0⟩, ⟨"UM", "UMI", 581⟩, ⟨"UN", "", 0⟩, ⟨"US", "USA", 840⟩,
    ⟨"UY", "URY", 858⟩, ⟨"UZ", "UZB", 860⟩, ⟨"VA", "VAT", 336⟩, ⟨"VC", "VCT", 670⟩,
    ⟨"VD", "VDR", 0⟩, ⟨"VE", "VEN", 862⟩, ⟨"VG", "VGB", 92⟩, ⟨"VI", "VIR", 850⟩,
    ⟨"VN", "VNM", 704⟩, ⟨"VU", "VUT", 548⟩, ⟨"WF", "WLF", 876⟩, ⟨"WK", "WAK", 0⟩,
    ⟨"WS", "WSM", 882⟩, ⟨"XA", "XAA", 973⟩, ⟨"XB", "XBB", 974⟩, ⟨"XC", "XCC", 975⟩,
    ⟨"XD", "XDD", 976⟩, ⟨"XE", "XEE", 977⟩, ⟨"XF", "XFF", 978⟩, ⟨"XG", "XGG", 979⟩,
    ⟨"XH", "XHH", 980⟩, ⟨"XI", "XII", 981⟩, ⟨"XJ", "XJJ", 982⟩, ⟨"XK", "XKK", 983⟩,
    ⟨"XL", "XLL", 984⟩, ⟨"XM", "XMM", 985⟩, ⟨"XN", "XNN", 986⟩, ⟨"XO", "XOO", 987⟩,
    ⟨"XP", "XPP", 988⟩, ⟨"XQ", "XQQ", 989⟩, ⟨"XR", "XRR", 990⟩, ⟨"XS", "XSS", 991⟩,
    ⟨"XT", "XTT", 992⟩, ⟨"XU", "XUU", 993⟩, ⟨"XV", "XVV", 994⟩, ⟨"XW", "XWW", 995⟩,
    ⟨"XX", "XXX", 996⟩, ⟨"XY", "XYY", 997⟩, ⟨"XZ", "XZZ", 998⟩, ⟨"YD", "YMD", 0⟩,
    ⟨"YE", "YEM", 887⟩, ⟨"YT", "MYT", 175⟩, ⟨"YU", "YUG", 0⟩, ⟨"ZA", "ZAF", 710⟩,
    ⟨"ZM", "ZMB", 894⟩, ⟨"ZR", "ZAR", 0⟩, ⟨"ZW", "ZWE", 716⟩, ⟨"ZZ", "ZZZ", 999⟩]

/-- The groups of regions, by their numbers with three digits. -/
def regionGroups : List String :=
  ["001", "002", "003", "005", "009", "011", "013", "014", "015", "017", "018", "019", "021",
    "029", "030", "034", "035", "039", "053", "054", "057", "061", "142", "143", "145", "150",
    "151", "154", "155", "202", "419"]

/-- Further numbers, of regions that have been merged or renumbered. -/
def oldRegionNumbers : List (Nat × String) :=
  [(172, "RU"), (200, "CZ"), (230, "ET"), (249, "FR"), (278, "DE"), (280, "DE"), (530, "CW"),
    (532, "CW"), (536, "SA"), (582, "FM"), (720, "YE"), (736, "SD"), (810, "RU"), (830, "JE"),
    (886, "YE"), (890, "RS"), (891, "RS")]

/-- Regions that have been replaced, each with the one in use. -/
def replacedRegions : List (String × String) :=
  [("BU", "MM"), ("CS", "RS"), ("CT", "KI"), ("DD", "DE"), ("DY", "BJ"), ("FQ", "AQ"),
    ("FX", "FR"), ("HV", "BF"), ("JT", "UM"), ("MI", "UM"), ("NH", "VU"), ("NQ", "AQ"),
    ("NT", "SA"), ("PU", "UM"), ("PZ", "PA"), ("QU", "EU"), ("RH", "ZW"), ("SU", "RU"),
    ("TP", "TL"), ("UK", "GB"), ("VD", "VN"), ("WK", "UM"), ("YD", "YE"), ("YU", "RS"),
    ("ZR", "CD")]

/-- The region of a name of two letters in upper case, if it is registered. -/
def shortRegion? (name : String) : Option String :=
  if regions.any fun names => names.short == name then some name else none

/-- The region of a name of three letters in upper case, if it is registered. -/
def longRegion? (name : String) : Option String :=
  if name.isEmpty then none
  else (regions.find? fun names => names.long == name).map RegionNames.short

/-- The region of a number, given by its three digits, if it is registered. Groups keep their
number. -/
def numberedRegion? (digits : String) : Option String :=
  if regionGroups.contains digits then some digits
  else
    match digits.toNat? with
    | none | some 0 => none
    | some number =>
        match regions.find? fun names => names.number == number with
        | some names => some names.short
        | none => oldRegionNumbers.lookup number

/-- The name in use for a region. -/
def currentRegion (name : String) : String :=
  (replacedRegions.lookup name).getD name

/-!
## The registers of scripts and of variants

Scripts have names of four letters. Variants are ways of writing or speaking that are not tied to a
region, and have longer names or names that start with a digit.
-/

/-- The scripts. -/
def scripts : List String :=
  ["Adlm", "Afak", "Aghb", "Ahom", "Arab", "Aran", "Armi", "Armn", "Avst", "Bali", "Bamu", "Bass",
    "Batk", "Beng", "Bhks", "Blis", "Bopo", "Brah", "Brai", "Bugi", "Buhd", "Cakm", "Cans", "Cari",
    "Cham", "Cher", "Chrs", "Cirt", "Copt", "Cpmn", "Cprt", "Cyrl", "Cyrs", "Deva", "Diak", "Dogr",
    "Dsrt", "Dupl", "Egyd", "Egyh", "Egyp", "Elba", "Elym", "Ethi", "Geok", "Geor", "Glag", "Gong",
    "Gonm", "Goth", "Gran", "Grek", "Gujr", "Guru", "Hanb", "Hang", "Hani", "Hano", "Hans", "Hant",
    "Hatr", "Hebr", "Hira", "Hluw", "Hmng", "Hmnp", "Hrkt", "Hung", "Inds", "Ital", "Jamo", "Java",
    "Jpan", "Jurc", "Kali", "Kana", "Kawi", "Khar", "Khmr", "Khoj", "Kitl", "Kits", "Knda", "Kore",
    "Kpel", "Kthi", "Lana", "Laoo", "Latf", "Latg", "Latn", "Leke", "Lepc", "Limb", "Lina", "Linb",
    "Lisu", "Loma", "Lyci", "Lydi", "Mahj", "Maka", "Mand", "Mani", "Marc", "Maya", "Medf", "Mend",
    "Merc", "Mero", "Mlym", "Modi", "Mong", "Moon", "Mroo", "Mtei", "Mult", "Mymr", "Nagm", "Nand",
    "Narb", "Nbat", "Newa", "Nkdb", "Nkgb", "Nkoo", "Nshu", "Ogam", "Olck", "Orkh", "Orya", "Osge",
    "Osma", "Ougr", "Palm", "Pauc", "Pcun", "Pelm", "Perm", "Phag", "Phli", "Phlp", "Phlv", "Phnx",
    "Piqd", "Plrd", "Prti", "Psin", "Ranj", "Rjng", "Rohg", "Roro", "Runr", "Samr", "Sara", "Sarb",
    "Saur", "Sgnw", "Shaw", "Shrd", "Shui", "Sidd", "Sind", "Sinh", "Sogd", "Sogo", "Sora", "Soyo",
    "Sund", "Sunu", "Sylo", "Syrc", "Syre", "Syrj", "Syrn", "Tagb", "Takr", "Tale", "Talu", "Taml",
    "Tang", "Tavt", "Telu", "Teng", "Tfng", "Tglg", "Thaa", "Thai", "Tibt", "Tirh", "Tnsa", "Toto",
    "Ugar", "Vaii", "Visp", "Vith", "Wara", "Wcho", "Wole", "Xpeo", "Xsux", "Yezi", "Yiii", "Zanb",
    "Zinh", "Zmth", "Zsye", "Zsym", "Zxxx", "Zyyy", "Zzzz"]

/-- Whether a name is set aside for private use: `Qaaa` to `Qabx`. -/
def isPrivateScript (name : String) : Bool :=
  match name.toList with
  | ['Q', 'a', third, fourth] =>
      third == 'a' && 'a' ≤ fourth && fourth ≤ 'z' || third == 'b' && 'a' ≤ fourth && fourth ≤ 'x'
  | _ => false

/-- Whether a script, in lower case after a capital, is registered. -/
def isScript (name : String) : Bool :=
  isPrivateScript name || scripts.contains name

/-- The variants. -/
def variants : List String :=
  ["1606nict", "1694acad", "1901", "1959acad", "1994", "1996", "abl1943", "akuapem", "alalc97",
    "aluku", "ao1990", "aranes", "arevela", "arevmda", "arkaika", "asante", "auvern", "baku1926",
    "balanka", "barla", "basiceng", "bauddha", "biscayan", "biske", "bohoric", "boont", "bornholm",
    "cisaup", "colb1945", "cornu", "creiss", "dajnko", "ekavsk", "emodeng", "fonipa", "fonkirsh",
    "fonnapa", "fonupa", "fonxsamp", "gascon", "grclass", "grital", "grmistr", "hepburn", "heploc",
    "hognorsk", "hsistemo", "ijekavsk", "itihasa", "ivanchov", "jauer", "jyutping", "kkcor",
    "kociewie", "kscor", "laukika", "lemosin", "lengadoc", "lipaw", "luna1918", "metelko",
    "monoton", "ndyuka", "nedis", "newfound", "nicard", "njiva", "nulik", "osojs", "oxendict",
    "pahawh2", "pahawh3", "pahawh4", "pamaka", "peano", "petr1708", "pinyin", "polyton", "provenc",
    "puter", "rigik", "rozaj", "rumgr", "scotland", "scouse", "simple", "solba", "sotav",
    "spanglis", "surmiran", "sursilv", "sutsilv", "synnejyl", "tarask", "tongyong", "tunumiso",
    "uccor", "ucrcor", "ulster", "unifon", "vaidika", "valencia", "vallader", "vecdruka",
    "vivaraup", "wadegile", "xsistemo"]

end Reckon.Locale.Register
