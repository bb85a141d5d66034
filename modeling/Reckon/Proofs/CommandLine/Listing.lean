import Reckon.CommandLine.Run
import Reckon.Proofs.Lexeme.Joining
import Reckon.Proofs.Lexeme.Recognizing

/-!
# The listing of tokens

The listing shows what a lexeme says as a string of the language.  Scanned, this string says the same, so
different lexemes never look alike in the listing.
-/

namespace Reckon

open Text (Rune)
open CommandLine (listedChar listedLiteral listingLine listingHead listTokens padded)
open Recognized (Spells spells_self next_of_spells)

/-! ## Literals -/

theorem spells_listedChar (c : Char) : Spells (listedChar c).toList c := by
  unfold listedChar
  split
  · exact fun _ => rfl
  · exact fun _ => rfl
  · exact fun _ => rfl
  · exact fun _ => rfl
  · exact fun _ => rfl
  · next notNewline notTab notReturn notBackslash notQuote =>
    split
    · next null =>
      have isNull : c = Char.ofNat 0 := by rw [← Char.ofNat_toNat c, null]
      rw [isNull]
      exact fun _ => rfl
    · rw [String.toList_singleton]
      exact spells_self notQuote notBackslash notNewline

theorem toList_listedLiteral (literal : String) : (listedLiteral literal).toList =
    '"' :: (literal.toList.flatMap (fun c => (listedChar c).toList) ++ ['"']) := by
  have mark : "\"".toList = ['"'] := by decide
  rw [listedLiteral, String.toList_append, String.toList_append, String.toList_join, mark,
    List.flatMap_map]
  rfl

/-- A literal of the listing is scanned as a string that says what the literal shows. -/
theorem scanText_listedLiteral (literal : String) :
    (Lexeme.scanText (listedLiteral literal)).map (fun lexeme => (lexeme.token, lexeme.lit)) =
      [(.string, literal), (.eof, "")] := by
  have found := next_of_spells (fun c (_ : c ∈ literal.toList) => spells_listedChar c)
    (Lexeme.ScanState.newlineEnds {}) []
  rw [← List.length_map Rune.ofChar] at found
  have scanned : Lexeme.scanned {} (.first "") (_ :: _ ++ []) = _ :: _ := Lexeme.scanned_of_next found
  rw [List.append_nil, Lexeme.scanned_nil, String.ofList_toList] at scanned
  rw [Lexeme.scanText, Lexeme.scan, Lexeme.scanWith_eq_scanned, Rune.decode_text, toList_listedLiteral,
    List.map_cons, scanned]
  rfl

theorem listedLiteral_injective : Function.Injective listedLiteral := by
  intro left right same
  have leftScan := scanText_listedLiteral left
  rw [same, scanText_listedLiteral right] at leftScan
  simpa using leftScan.symm

/-! ## Lines -/

/-- The line of a lexeme in the listing. -/
def Lexeme.listed (lexeme : Lexeme) : String :=
  listingLine lexeme.span.start.render lexeme.token.spelling (listedLiteral lexeme.lit)

theorem stdout_listTokens (file : String) (source : List UInt8) :
    (listTokens file source).stdout = listingHead ++
      String.join (((Lexeme.scan file source).filter Lexeme.isSignificant).map Lexeme.listed) := by
  dsimp only [listTokens]
  split <;> rfl

/-- A lexeme stands in the file that is scanned. -/
theorem Lexeme.Placed.file_eq {file : String} {source : List UInt8} {lexemes : List Lexeme}
    (placed : Placed file source lexemes) {lexeme : Lexeme} (member : lexeme ∈ lexemes) :
    lexeme.span.start.file = file := by
  induction placed with
  | nil => cases member
  | cons start _ _ _ _ inductionHypothesis =>
      rcases List.mem_cons.mp member with rfl | later
      · rw [start]
        rfl
      · exact inductionHypothesis later
  | overrun _ _ _ start stop _ =>
      rcases List.mem_pair.mp member with rfl | rfl
      · rw [start]
        rfl
      · exact (congrArg Position.file stop).trans rfl

/-- What stands before the line number of a place. -/
def filePrefix (file : String) : List Char :=
  if file == "" then [] else file.toList ++ [':']

theorem quote_not_mem_toDigits (n : Nat) : '"' ∉ Nat.toDigits 10 n := by
  intro member
  have digit := Nat.isDigit_of_mem_toDigits (by decide) (by decide) member
  exact absurd digit (by decide)

theorem quote_not_mem_spelling (token : Token) : '"' ∉ token.spelling.toList := by
  have all : ∀ token ∈ Token.all, '"' ∉ token.spelling.toList := by decide
  exact all token token.mem_all

/-- Behind the file a line has no quote until its literal starts. -/
theorem exists_listed_eq (lexeme : Lexeme) : ∃ columns, '"' ∉ columns ∧
    lexeme.listed.toList = filePrefix lexeme.span.start.file ++
      (columns ++ ((listedLiteral lexeme.lit).toList ++ ['\n'])) := by
  let start := lexeme.span.start
  let place := (toString start.line ++ ":" ++ toString start.column).toList
  let blanks := List.replicate (20 - start.render.length) ' '
  let kind := (padded 12 lexeme.token.spelling).toList
  have colon : ":".toList = [':'] := by decide
  have blank : " ".toList = [' '] := by decide
  have newline : "\n".toList = ['\n'] := by decide
  have rendered : start.render.toList = filePrefix start.file ++ place := by
    simp only [Position.render, filePrefix, place]
    split
    · rfl
    · rw [String.toList_append, String.toList_append, colon]
  have plainPlace : '"' ∉ place := by
    simp [place, String.toList_append, colon, quote_not_mem_toDigits]
  have plainKind : '"' ∉ kind := by
    simp [kind, padded, String.toList_append, quote_not_mem_spelling]
  refine ⟨place ++ blanks ++ ' ' :: kind ++ [' '], by simp [plainPlace, plainKind, blanks], ?_⟩
  rw [Lexeme.listed, listingLine, padded]
  simp only [String.toList_append, String.toList_ofList, rendered, blank, newline, start, blanks, kind,
    List.append_assoc, List.cons_append, List.nil_append]

/-- Lexemes of a file that look alike in the listing say the same. -/
theorem lit_eq_of_listed_eq {left right : Lexeme} (sameFile : left.span.start.file = right.span.start.file)
    (alike : left.listed = right.listed) : left.lit = right.lit := by
  have fromQuote {columns : List Char} (plain : '"' ∉ columns) (literal : String) :
      (columns ++ ((listedLiteral literal).toList ++ ['\n'])).dropWhile (· != '"') =
        (listedLiteral literal).toList ++ ['\n'] := by
    rw [List.dropWhile_append_of_pos fun c member => by simpa using ne_of_mem_of_not_mem member plain,
      toList_listedLiteral]
    rfl
  obtain ⟨leftColumns, leftPlain, leftEq⟩ := exists_listed_eq left
  obtain ⟨rightColumns, rightPlain, rightEq⟩ := exists_listed_eq right
  rw [alike, sameFile, rightEq, List.append_cancel_left_eq] at leftEq
  have literals := congrArg (List.dropWhile (· != '"')) leftEq
  rw [fromQuote rightPlain, fromQuote leftPlain, List.append_cancel_right_eq] at literals
  exact listedLiteral_injective (String.toList_injective literals.symm)

/-- A literal of the listing is scanned as a string that says what it shows, and lines of lexemes that
say different things differ. -/
theorem listed_literals_read_back :
    (∀ literal, (Lexeme.scanText (listedLiteral literal)).map
        (fun lexeme => (lexeme.token, lexeme.lit)) = [(.string, literal), (.eof, "")]) ∧
      (∀ file source, (listTokens file source).stdout = listingHead ++
        String.join (((Lexeme.scan file source).filter Lexeme.isSignificant).map Lexeme.listed)) ∧
      ∀ file source other, ∀ left ∈ Lexeme.scan file source, ∀ right ∈ Lexeme.scan file other,
        left.listed = right.listed → left.lit = right.lit := by
  refine ⟨scanText_listedLiteral, stdout_listTokens, fun file source other left known right known' => ?_⟩
  have placed (source : List UInt8) : Lexeme.Placed file source (Lexeme.scan file source) :=
    Lexeme.placed_scanFrom _ _ (Position.Holds.decode file source) rfl
  have here := (placed source).file_eq known
  have there := (placed other).file_eq known'
  exact lit_eq_of_listed_eq (here.trans there.symm)

theorem scan_ne_nil (file : String) (source : List UInt8) : Lexeme.scan file source ≠ [] := by
  rw [Lexeme.scan, Lexeme.scanWith, Lexeme.scanFrom.eq_def]
  split <;> simp

/-- A string in double quotes and one in single quotes look alike, and they say the same. -/
theorem listed_quotes_read_back :
    (Lexeme.scanText (listedLiteral "\"\\\n")).map (fun lexeme => (lexeme.token, lexeme.lit)) =
        [(.string, "\"\\\n"), (.eof, "")] ∧
      ∃ left ∈ Lexeme.scan "f" ['"'.toUInt8, 'a'.toUInt8, '"'.toUInt8],
        ∃ right ∈ Lexeme.scan "f" ['\x27'.toUInt8, 'a'.toUInt8, '\x27'.toUInt8],
          left.raw ≠ right.raw ∧ left.listed = right.listed ∧ left.lit = right.lit := by
  have alike : ((Lexeme.scan "f" ['"'.toUInt8, 'a'.toUInt8, '"'.toUInt8]).head (scan_ne_nil _ _)).listed =
      ((Lexeme.scan "f" ['\x27'.toUInt8, 'a'.toUInt8, '\x27'.toUInt8]).head (scan_ne_nil _ _)).listed := by
    decide +kernel
  obtain ⟨reads, -, differ⟩ := listed_literals_read_back
  exact ⟨reads _, _, List.head_mem _, _, List.head_mem _, by decide +kernel, alike,
    differ "f" _ _ _ (List.head_mem _) _ (List.head_mem _) alike⟩

end Reckon
