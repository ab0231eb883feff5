-- Letters of domain names: which letter stands for another one, and how a letter is joined with
-- the marks behind it. The tables are those of UTS-46 for the blocks of the Latin, Greek and
-- Cyrillic alphabets, for their marks, and for what is full-width, or vanishes, in any block.
-- Letters beyond these stay as they are.

namespace Provisioning.Host

/-- Does one of these ranges hold the character? -/
def isWithin (ranges : List (Nat × Nat)) (c : Char) : Bool :=
  ranges.any fun (low, high) => low ≤ c.toNat && c.toNat ≤ high

/-! ## Folding -/

/-- Letters that others stand for, in runs: the first, the last, how far it is from one to the
next, and how far from each to the one that stands for it. -/
def letterRuns : List (Nat × Nat × Nat × Int) := [
  (0xB2, 0xB3, 1, -128), (0xC0, 0xD6, 1, 32), (0xD8, 0xDE, 1, 32), (0x100, 0x12E, 2, 1),
  (0x134, 0x136, 2, 1), (0x139, 0x13D, 2, 1), (0x141, 0x147, 2, 1), (0x14A, 0x176, 2, 1),
  (0x179, 0x17D, 2, 1), (0x182, 0x184, 2, 1), (0x189, 0x18A, 1, 205), (0x1A0, 0x1A4, 2, 1),
  (0x1B1, 0x1B2, 1, 217), (0x1B3, 0x1B5, 2, 1), (0x1CD, 0x1DB, 2, 1), (0x1DE, 0x1EE, 2, 1),
  (0x1F8, 0x21E, 2, 1), (0x222, 0x232, 2, 1), (0x246, 0x24E, 2, 1), (0x340, 0x341, 1, -64),
  (0x370, 0x372, 2, 1), (0x388, 0x38A, 1, 37), (0x38E, 0x38F, 1, 63), (0x391, 0x3A1, 1, 32),
  (0x3A3, 0x3AB, 1, 32), (0x3D8, 0x3EE, 2, 1), (0x3FD, 0x3FF, 1, -130), (0x400, 0x40F, 1, 80),
  (0x410, 0x42F, 1, 32), (0x460, 0x480, 2, 1), (0x48A, 0x4BE, 2, 1), (0x4C1, 0x4CD, 2, 1),
  (0x4D0, 0x52E, 2, 1), (0x1E00, 0x1E94, 2, 1), (0x1EA0, 0x1EFE, 2, 1), (0x1F08, 0x1F0F, 1, -8),
  (0x1F18, 0x1F1D, 1, -8), (0x1F28, 0x1F2F, 1, -8), (0x1F38, 0x1F3F, 1, -8),
  (0x1F48, 0x1F4D, 1, -8), (0x1F59, 0x1F5F, 2, -8), (0x1F68, 0x1F6F, 1, -8),
  (0x1FB8, 0x1FB9, 1, -8), (0x1FD8, 0x1FD9, 1, -8), (0x1FE8, 0x1FE9, 1, -8),
  (0xFF01, 0xFF20, 1, -65248), (0xFF21, 0xFF3A, 1, -65216), (0xFF3B, 0xFF5E, 1, -65248)]

/-- Letters that others stand for, and those, one by one. -/
def loneLetters : List (String × String) := [
  ("ªµ¹ºŸſƁƆƇƋƎƏƐƑƓƔƖƗƘƜƝƟƦƧ", "aμ1oÿsɓɔƈƌǝəɛƒɠɣɩɨƙɯɲɵʀƨ"),
  ("ƩƬƮƯƷƸƼǴǶǷȠȺȻȽȾɁɃɄɅʰʱʲʳʴ", "ʃƭʈưʒƹƽǵƕƿƞⱥȼƚⱦɂƀʉʌhɦjrɹ"),
  ("ʵʶʷʸˠˡˢˣˤ\u0343\u0345\u0374Ͷ\u037eͿΆ\u0387ΌϏϐϑϒϓϔ", "ɻʁwyɣlsxʕ\u0313ιʹͷ;ϳά·όϗβθυύϋ"),
  ("ϕϖϰϱϲϴϵϷϹϺӀẛẞ\u1f71\u1f73\u1f75\u1f77\u1f79\u1f7b\u1f7dᾺ\u1fbb\u1fbeῈ",
    "φπκρσθεϸσϻӏṡßάέήίόύώὰάιὲ"),
  ("\u1fc9Ὴ\u1fcb\u1fd3Ὶ\u1fdb\u1fe3Ὺ\u1febῬ\u1fefῸ\u1ff9Ὼ\u1ffb\u2126\u212a\u212b。｡",
    "έὴήΐὶίΰὺύῥ`ὸόὼώωkå..")]

/-- Letters that are spelled out. -/
def spelledLetters : List (Char × String) := [
  ('¼', "1⁄4"), ('½', "1⁄2"), ('¾', "3⁄4"), ('İ', "i\u0307"), ('Ĳ', "ij"), ('ĳ', "ij"),
  ('Ŀ', "l·"), ('ŀ', "l·"), ('ŉ', "ʼn"), ('Ǆ', "dž"), ('ǅ', "dž"), ('ǆ', "dž"), ('Ǉ', "lj"),
  ('ǈ', "lj"), ('ǉ', "lj"), ('Ǌ', "nj"), ('ǋ', "nj"), ('ǌ', "nj"), ('Ǳ', "dz"), ('ǲ', "dz"),
  ('ǳ', "dz"), ('\u0344', "\u0308\u0301"), ('ẚ', "aʾ"), ('ᾲ', "ὰι"), ('ᾳ', "αι"), ('ᾴ', "άι"),
  ('ᾷ', "ᾶι"), ('ᾼ', "αι"), ('ῂ', "ὴι"), ('ῃ', "ηι"), ('ῄ', "ήι"), ('ῇ', "ῆι"), ('ῌ', "ηι"),
  ('ῲ', "ὼι"), ('ῳ', "ωι"), ('ῴ', "ώι"), ('ῷ', "ῶι"), ('ῼ', "ωι"), ('ﬀ', "ff"), ('ﬁ', "fi"),
  ('ﬂ', "fl"), ('ﬃ', "ffi"), ('ﬄ', "ffl"), ('ﬅ', "st"), ('ﬆ', "st")]

/-- What vanishes from a name. -/
def vanishing : List (Nat × Nat) := [
  (0xAD, 0xAD), (0x34F, 0x34F), (0x115F, 0x1160), (0x17B4, 0x17B5), (0x180B, 0x180F),
  (0x200B, 0x200B), (0x2060, 0x2064), (0x206A, 0x206F), (0x3164, 0x3164), (0xFE00, 0xFE0F),
  (0xFEFF, 0xFEFF), (0xFFA0, 0xFFA0), (0x1BCA0, 0x1BCA3), (0x1D173, 0x1D17A), (0xE0100, 0xE01EF)]

/-- What no name may hold: marks on a space, joiners, and what is no character at all. -/
def unusable : List (Nat × Nat) := [
  (0x80, 0xA0), (0xA8, 0xA8), (0xAF, 0xAF), (0xB4, 0xB4), (0xB8, 0xB8), (0x2D8, 0x2DD),
  (0x378, 0x37A), (0x380, 0x385), (0x38B, 0x38B), (0x38D, 0x38D), (0x3A2, 0x3A2),
  (0x1F16, 0x1F17), (0x1F1E, 0x1F1F), (0x1F46, 0x1F47), (0x1F4E, 0x1F4F), (0x1F58, 0x1F58),
  (0x1F5A, 0x1F5A), (0x1F5C, 0x1F5C), (0x1F5E, 0x1F5E), (0x1F7E, 0x1F7F), (0x1FB5, 0x1FB5),
  (0x1FBD, 0x1FBD), (0x1FBF, 0x1FC1), (0x1FC5, 0x1FC5), (0x1FCD, 0x1FCF), (0x1FD4, 0x1FD5),
  (0x1FDC, 0x1FDF), (0x1FED, 0x1FEE), (0x1FF0, 0x1FF1), (0x1FF5, 0x1FF5), (0x1FFD, 0x1FFF),
  (0x200C, 0x200D), (0xE000, 0xF8FF), (0xFFF0, 0xFFFF), (0xE0000, 0xE00FF), (0xE01F0, 0x10FFFF)]

/-- The letters that stand for one: small letters for large ones and for variants. -/
def foldLetter (c : Char) : List Char :=
  let n := c.toNat
  if n < 0x80 then [c.toLower]
  else if isWithin vanishing c then []
  else if 0x1F80 ≤ n ∧ n ≤ 0x1FAF then
    -- An iota below the letter is written behind it.
    let row := if n < 0x1F90 then 0x1F00 else if n < 0x1FA0 then 0x1F20 else 0x1F60
    [Char.ofNat (row + n % 8), 'ι']
  else match spelledLetters.lookup c with
  | some spelling => spelling.toList
  | none =>
    match (loneLetters.flatMap fun (ls, ds) => ls.toList.zip ds.toList).lookup c with
    | some d => [d]
    | none =>
      match letterRuns.find? fun (first, last, step, _) =>
          first ≤ n && n ≤ last && (n - first) % step == 0 with
      | some (_, _, _, distance) => [Char.ofNat (n + distance).toNat]
      | none => [c]

/-! ## Marks -/

/-- For each mark, the letters that it is joined with, and what comes of that. -/
def markedLetters : List (Char × String × String) := [
  ('\u0300', "aeiouünеиēōwâăêôơưyἀἁἐἑἠἡἰἱὀὁὐὑὠὡαεηιουωϊϋ",
    "àèìòùǜǹѐѝḕṑẁầằềồờừỳἂἃἒἓἢἣἲἳὂὃὒὓὢὣὰὲὴὶὸὺὼῒῢ"),
  ('\u0301', "aeiouyclnrszügåæøϊαεηιϋουωгкçēïkmõōpũwâăêôơưἀἁἐἑἠἡἰἱὀὁὐὑὠὡ",
    "áéíóúýćĺńŕśźǘǵǻǽǿΐάέήίΰόύώѓќḉḗḯḱḿṍṓṕṹẃấắếốớứἄἅἔἕἤἥἴἵὄὅὔὕὤὥ"),
  ('\u0302', "aeioucghjswyzạẹọ", "âêîôûĉĝĥĵŝŵŷẑậệộ"),
  ('\u0303', "anoiuvâăeêôơưy", "ãñõĩũṽẫẵẽễỗỡữỹ"),
  ('\u0304', "aeiouüäȧæǫöõȯyиуgḷṛαιυ", "āēīōūǖǟǡǣǭȫȭȱȳӣӯḡḹṝᾱῑῡ"),
  ('\u0306', "aegiouиужаеȩạαιυ", "ăĕğĭŏŭйўӂӑӗḝặᾰῐῠ"),
  ('\u0307', "cegzaobdfhmnprsśšṣtwxy", "ċėġżȧȯḃḋḟḣṁṅṗṙṡṥṧṩṫẇẋẏ"),
  ('\u0308', "aeiouyιυеіаәжзиоөэучыhõūwxt", "äëïöüÿϊϋёїӓӛӝӟӥӧӫӭӱӵӹḧṏṻẅẍẗ"),
  ('\u0309', "aâăeêioôơuưy", "ảẩẳẻểỉỏổởủửỷ"),
  ('\u030a', "auwy", "åůẘẙ"),
  ('\u030b', "ouу", "őűӳ"),
  ('\u030c', "cdelnrstzaiouügkʒjh", "čďěľňřšťžǎǐǒǔǚǧǩǯǰȟ"),
  ('\u030f', "aeioruѵ", "ȁȅȉȍȑȕѷ"),
  ('\u0311', "aeioru", "ȃȇȋȏȓȗ"),
  ('\u0313', "αεηιουωρ", "ἀἐἠἰὀὐὠῤ"),
  ('\u0314', "αεηιουωρ", "ἁἑἡἱὁὑὡῥ"),
  ('\u031b', "ou", "ơư"),
  ('\u0323', "bdhklmnrstvwzaeioơuưy", "ḅḍḥḳḷṃṇṛṣṭṿẉẓạẹịọợụựỵ"),
  ('\u0324', "u", "ṳ"),
  ('\u0325', "a", "ḁ"),
  ('\u0326', "st", "șț"),
  ('\u0327', "cgklnrstedh", "çģķļņŗşţȩḑḩ"),
  ('\u0328', "aeiuo", "ąęįųǫ"),
  ('\u032d', "delntu", "ḓḙḽṋṱṷ"),
  ('\u032e', "h", "ḫ"),
  ('\u0330', "eiu", "ḛḭṵ"),
  ('\u0331', "bdklnrtzh", "ḇḏḵḻṉṟṯẕẖ"),
  ('\u0342', "ἀἁἠἡἰἱὐὑὠὡαηιϊυϋω", "ἆἇἦἧἶἷὖὗὦὧᾶῆῖῗῦῧῶ")]

/-- The classes of marks. Marks of one class keep their order behind a letter, and those of a
lower class come first. -/
def markClasses : List (Nat × Nat × Nat) := [
  (0x300, 0x314, 230), (0x315, 0x315, 232), (0x316, 0x319, 220), (0x31A, 0x31A, 232),
  (0x31B, 0x31B, 216), (0x31C, 0x320, 220), (0x321, 0x322, 202), (0x323, 0x326, 220),
  (0x327, 0x328, 202), (0x329, 0x333, 220), (0x334, 0x338, 1), (0x339, 0x33C, 220),
  (0x33D, 0x344, 230), (0x345, 0x345, 240), (0x346, 0x346, 230), (0x347, 0x349, 220),
  (0x34A, 0x34C, 230), (0x34D, 0x34E, 220), (0x350, 0x352, 230), (0x353, 0x356, 220),
  (0x357, 0x357, 230), (0x358, 0x358, 232), (0x359, 0x35A, 220), (0x35B, 0x35B, 230),
  (0x35C, 0x35C, 233), (0x35D, 0x35E, 234), (0x35F, 0x35F, 233), (0x360, 0x361, 234),
  (0x362, 0x362, 233), (0x363, 0x36F, 230), (0x483, 0x487, 230)]

/-- The class of a mark; what is none has class 0. -/
def markClass (c : Char) : Nat :=
  ((markClasses.find? fun (low, high, _) => low ≤ c.toNat && c.toNat ≤ high).map (·.2.2)).getD 0

/-- Is this a mark? Those that enclose a letter have no class. -/
def isMark (c : Char) : Bool := markClass c != 0 || isWithin [(0x488, 0x489)] c

def joined? (letter mark : Char) : Option Char := do
  let (letters, whole) ← markedLetters.lookup mark
  (letters.toList.zip whole.toList).lookup letter

/-- The letter and the mark that a character is joined of. -/
def parts? (c : Char) : Option (Char × Char) :=
  markedLetters.findSome? fun (mark, letters, whole) =>
    ((whole.toList.zip letters.toList).lookup c).map (·, mark)

/-- A letter with its marks behind it, of which no more than so many are taken off. -/
def takenApart : Nat → Char → List Char
  | 0, c => [c]
  | n + 1, c =>
    match parts? c with
    | some (letter, mark) => takenApart n letter ++ [mark]
    | none => [c]

/-- Puts a character behind others, which stand in reverse; a mark goes before those of higher
classes. -/
def placeMark (c : Char) : List Char → List Char
  | [] => [c]
  | d :: rest =>
    if markClass c ≠ 0 ∧ markClass c < markClass d then d :: placeMark c rest else c :: d :: rest

/-- Joins a letter with the marks behind it, unless a mark that stays has their class or a higher
one. Those that stay stand in reverse. -/
def joinMarks (letter : Char) (staying : List Char) : List Char → List Char
  | [] => letter :: staying.reverse
  | c :: rest =>
    if markClass c = 0 then letter :: staying.reverse ++ joinMarks c [] rest
    else
      let isBlocked := staying.head?.any (markClass c ≤ markClass ·)
      match if isBlocked then none else joined? letter c with
      | some whole => joinMarks whole staying rest
      | none => joinMarks letter (c :: staying) rest

/-- A name as it is looked up: with each letter folded, and joined with its marks. No letter
of the tables has more than three. -/
def normalized (name : List Char) : List Char :=
  if name.all (·.toNat < 0x80) then name.map Char.toLower
  else
    let apart := (name.flatMap foldLetter).flatMap (takenApart 3)
    match (apart.foldl (fun placed c => placeMark c placed) []).reverse with
    | [] => []
    | c :: rest => joinMarks c [] rest

end Provisioning.Host
