import Reckon.Proofs.Lexeme.Verbatim

/-!
# The reader of replacements

The brace that closes a replacement is looked for before the text in front of it is scanned, by a reader
that knows braces and strings.  It agrees with the scanner about numbers, names, strings and operators, and
comes through a template as it went in unless the fixed text of the template has marks that it takes for
braces or quotes.
-/

namespace Reckon

open Text (Rune isHexDigit isDigit isNameRest ne_of_passes)
open Text.Rune

namespace Recognized

/-- Some runes more before the end. -/
def ReplacementEnd.add (found : ReplacementEnd) (count : Nat) : ReplacementEnd :=
  match found with
  | .closed length => .closed (length + count)
  | .unclosed overrun => .unclosed overrun

theorem ReplacementEnd.succ_add (found : ReplacementEnd) (count : Nat) :
    (found.add count).succ = found.add (count + 1) := by
  cases found <;> rfl

theorem ReplacementEnd.add_add (found : ReplacementEnd) (count more : Nat) :
    (found.add count).add more = found.add (count + more) := by
  cases found <;> simp [add, Nat.add_assoc]

/-! ## Passing over runes -/

/-- Over some runes the reader of a replacement gets from a mode and a depth to others, whatever
follows. -/
def Passes (runes : List Rune) (mode : ReplacementMode) (depth : Nat) (mode' : ReplacementMode)
    (depth' : Nat) : Prop :=
  ∀ following, replacementEnd mode depth (runes ++ following) =
    (replacementEnd mode' depth' following).add runes.length

/-- The reader comes through some runes as it went in. -/
def Passed (runes : List Rune) : Prop :=
  ∀ depth, Passes runes .code depth .code depth

/-- The characters that mean something to the reader outside of strings. -/
def isMark (c : Char) : Bool :=
  c == '\x7b' || c == '\x7d' || c == '"' || c == singleQuote

variable {rune : Rune} {runes left right : List Rune} {mode mode' mode'' : ReplacementMode}
  {depth depth' depth'' : Nat} {quote : Char}

theorem Passes.nil : Passes [] mode depth mode depth := fun following => by
  cases found : replacementEnd mode depth following <;> simp [found, ReplacementEnd.add]

theorem Passes.append (first : Passes left mode depth mode' depth')
    (second : Passes right mode' depth' mode'' depth'') :
    Passes (left ++ right) mode depth mode'' depth'' := fun following => by
  rw [List.append_assoc, first, second, ReplacementEnd.add_add, List.length_append, Nat.add_comm]

theorem Passes.cons (first : Passes [rune] mode depth mode' depth')
    (rest : Passes runes mode' depth' mode'' depth'') :
    Passes (rune :: runes) mode depth mode'' depth'' :=
  first.append rest

theorem passes_of_forall (each : ∀ rune ∈ runes, Passes [rune] mode depth mode depth) :
    Passes runes mode depth mode depth := by
  induction runes with
  | nil => exact .nil
  | cons rune rest inductionHypothesis =>
      obtain ⟨first, others⟩ := List.forall_mem_cons.mp each
      exact first.cons (inductionHypothesis others)

theorem passes_singleton
    (step : ∀ following, replacementEnd mode depth (rune :: following) =
      (replacementEnd mode' depth' following).succ) : Passes [rune] mode depth mode' depth' :=
  fun following => by
    rw [List.singleton_append, step]
    cases found : replacementEnd mode' depth' following <;> rfl

theorem passes_plain (plain : isMark rune.char = false) : Passes [rune] .code depth .code depth := by
  simp only [isMark, Bool.or_eq_false_iff] at plain
  exact passes_singleton fun following => by simp [replacementEnd, plain]

theorem passes_opening (opens : rune.char = '\x7b') : Passes [rune] .code depth .code (depth + 1) :=
  passes_singleton fun following => by simp [replacementEnd, opens]

theorem passes_closing (closes : rune.char = '\x7d') : Passes [rune] .code (depth + 1) .code depth :=
  passes_singleton fun following => by simp [replacementEnd, closes]

theorem passes_quote (quote : rune.char = '"' ∨ rune.char = singleQuote) :
    Passes [rune] .code depth (.quoted rune.char) depth :=
  passes_singleton fun following => by
    rcases quote with same | same
    · simp [replacementEnd, same]
    · simp [replacementEnd, same, singleQuote]

theorem passes_unquote (ends : rune.char = quote ∨ rune.char = '\n') :
    Passes [rune] (.quoted quote) depth .code depth :=
  passes_singleton fun following => by simp [replacementEnd, ends]

theorem passes_quoted (continues : ¬(rune.char = quote ∨ rune.char = '\n'))
    (notBackslash : rune.char ≠ '\\') : Passes [rune] (.quoted quote) depth (.quoted quote) depth :=
  passes_singleton fun following => by simp [replacementEnd, continues, notBackslash]

theorem passes_backslash (continues : ¬(rune.char = quote ∨ rune.char = '\n'))
    (backslash : rune.char = '\\') : Passes [rune] (.quoted quote) depth (.escaped quote) depth :=
  passes_singleton fun following => by
    simp only [replacementEnd, Bool.or_eq_true, beq_iff_eq, if_neg continues, if_pos backslash]

theorem passes_escaped : Passes [rune] (.escaped quote) depth (.quoted quote) depth :=
  passes_singleton fun _ => rfl

theorem passed_of_plain (plain : ∀ rune ∈ runes, isMark rune.char = false) : Passed runes :=
  fun _ => passes_of_forall fun rune member => passes_plain (plain rune member)

/-- A class without the marks. -/
theorem isMark_of_passes {test : Char → Bool}
    (noMarks : ['\x7b', '\x7d', '"', singleQuote].any test = false) {c : Char} (passes : test c = true) :
    isMark c = false := by
  have other : ∀ mark ∈ ['\x7b', '\x7d', '"', singleQuote], c ≠ mark := fun mark member =>
    ne_of_passes passes (by simpa using List.any_eq_false.mp noMarks mark member)
  simp only [List.forall_mem_cons] at other
  simp [isMark, other]

theorem passed_leading {test : Char → Bool}
    (noMarks : ['\x7b', '\x7d', '"', singleQuote].any test = false) (runes : List Rune) :
    Passed (leading test runes) :=
  passed_of_plain fun _ member =>
    isMark_of_passes noMarks (List.mem_takeWhile_imp (p := fun rune : Rune => test rune.char) member)

/-! ## Strings -/

theorem hexEscape_spec (count : Nat) (runes : List Rune) :
    (hexEscape count runes).2 ≤ runes.length ∧
      ∀ digit ∈ runes.take (hexEscape count runes).2, isHexDigit digit.char = true := by
  let digits := leading isHexDigit (runes.take count)
  have front : digits <+: runes := (List.takeWhile_prefix _).trans (List.take_prefix _ _)
  refine ⟨front.length_le, fun digit member => ?_⟩
  have among : digit ∈ digits := by
    rw [List.prefix_iff_eq_take.mp front]
    exact member
  exact List.mem_takeWhile_imp (p := fun rune : Rune => isHexDigit rune.char) among

/-- An escape covers a character and hexadecimal digits, and a mark stands for itself. -/
theorem escape_spec (escaped : Rune) (rest : List Rune) : ∃ digits,
    (escape (escaped :: rest)).2 = digits + 1 ∧ digits ≤ rest.length ∧
      (∀ digit ∈ rest.take digits, isHexDigit digit.char = true) ∧
      (isMark escaped.char = true → (escape (escaped :: rest)).1 = escaped.char) := by
  have none : 0 ≤ rest.length ∧ ∀ digit ∈ rest.take 0, isHexDigit digit.char = true :=
    ⟨Nat.zero_le _, by simp⟩
  have noMark {c : Char} (same : escaped.char = c) (plain : isMark c = false) {other : Prop}
      (mark : isMark escaped.char = true) : other := by
    rw [same, plain] at mark
    cases mark
  unfold escape
  dsimp only
  split
  · next same => exact ⟨0, rfl, none.1, none.2, noMark same (by decide)⟩
  · next same => exact ⟨0, rfl, none.1, none.2, noMark same (by decide)⟩
  · next same => exact ⟨0, rfl, none.1, none.2, noMark same (by decide)⟩
  · next same => exact ⟨0, rfl, none.1, none.2, noMark same (by decide)⟩
  · next same =>
    obtain ⟨few, digits⟩ := hexEscape_spec 2 rest
    exact ⟨_, rfl, few, digits, noMark same (by decide)⟩
  · next same =>
    obtain ⟨few, digits⟩ := hexEscape_spec 4 rest
    exact ⟨_, rfl, few, digits, noMark same (by decide)⟩
  · exact ⟨0, rfl, none.1, none.2, fun _ => rfl⟩

theorem quotation_drop {used : Nat} (enough : used ≤ runes.length) :
    quotation quote used runes =
      { quotation quote 0 (runes.drop used) with
        length := (quotation quote 0 (runes.drop used)).length + used } := by
  induction used generalizing runes with
  | zero => rfl
  | succ used inductionHypothesis =>
      cases runes with
      | nil => cases enough
      | cons rune rest =>
          rw [quotation, inductionHypothesis (Nat.le_of_succ_le_succ enough)]
          rfl

/-- A string is over for the reader where it is for the scanner. -/
theorem passes_quotation (isQuote : quote = '"' ∨ quote = singleQuote)
    (closed : (quotation quote 0 runes).closed = true) :
    Passes (runes.take (quotation quote 0 runes).length) (.quoted quote) depth .code depth := by
  induction size : runes.length using Nat.strongRecOn generalizing runes with
  | ind size inductionHypothesis =>
      subst size
      cases runes with
      | nil => cases closed
      | cons rune rest =>
          by_cases ends : rune.char = quote
          · simp only [quotation, ends, beq_self_eq_true, if_true, List.take_succ_cons, List.take_zero]
            exact passes_unquote (.inl ends)
          by_cases newline : rune.char = '\n'
          · rw [newline] at ends
            simp [quotation, newline, ends] at closed
          have continues : ¬(rune.char = quote ∨ rune.char = '\n') := by simp [ends, newline]
          by_cases backslash : rune.char = '\\'
          · have step : quotation quote 0 (rune :: rest) =
                { quotation quote (escape rest).2 rest with
                  content := (escape rest).1 :: (quotation quote (escape rest).2 rest).content
                  length := (quotation quote (escape rest).2 rest).length + 1 } := by
              rw [backslash] at ends
              simp [quotation, backslash, ends]
            rw [step] at closed ⊢
            cases rest with
            | nil => cases closed
            | cons escaped rest =>
                obtain ⟨digits, used, enough, hex, -⟩ := escape_spec escaped rest
                have skip : quotation quote (escape (escaped :: rest)).2 (escaped :: rest) =
                    { quotation quote 0 (rest.drop digits) with
                      length := (quotation quote 0 (rest.drop digits)).length + (digits + 1) } := by
                  rw [used, quotation_drop (Nat.succ_le_succ enough), List.drop_succ_cons]
                rw [skip] at closed ⊢
                have others := inductionHypothesis (rest.drop digits).length
                  (by simp only [List.length_drop, List.length_cons]; omega) closed rfl
                have noHex : isHexDigit quote = false ∧ isHexDigit '\n' = false ∧
                    isHexDigit '\\' = false := by
                  rcases isQuote with rfl | rfl <;> decide
                have middle : Passes (rest.take digits) (.quoted quote) depth (.quoted quote) depth :=
                  passes_of_forall fun digit member =>
                    passes_quoted
                      (not_or_intro (ne_of_passes (hex digit member) noHex.1)
                        (ne_of_passes (hex digit member) noHex.2.1))
                      (ne_of_passes (hex digit member) noHex.2.2)
                have covered : (rune :: escaped :: rest).take
                    ((quotation quote 0 (rest.drop digits)).length + (digits + 1) + 1) =
                    rune :: escaped :: (rest.take digits ++
                      (rest.drop digits).take (quotation quote 0 (rest.drop digits)).length) := by
                  rw [List.take_succ_cons, ← Nat.add_assoc, List.take_succ_cons, Nat.add_comm, List.take_add]
                dsimp only
                rw [covered]
                exact (passes_backslash continues backslash).cons (passes_escaped.cons (middle.append others))
          · have step : quotation quote 0 (rune :: rest) =
                { quotation quote 0 rest with
                  content := rune.char :: (quotation quote 0 rest).content
                  length := (quotation quote 0 rest).length + 1 } := by
              simp [quotation, ends, backslash, newline]
            rw [step] at closed ⊢
            exact (passes_quoted continues backslash).cons
              (inductionHypothesis rest.length (Nat.lt_succ_self _) closed rfl)

/-! ## Templates -/

theorem templateFrom_drop {used : Nat} {state : TemplateState} (enough : used ≤ runes.length) :
    templateFrom used state runes =
      templateFrom 0 { state with length := state.length + used } (runes.drop used) := by
  induction used generalizing state runes with
  | zero => rfl
  | succ used inductionHypothesis =>
      cases runes with
      | nil => cases enough
      | cons rune rest =>
          rw [templateFrom, inductionHypothesis (Nat.le_of_succ_le_succ enough), List.drop_succ_cons]
          simp only [Nat.add_assoc, Nat.add_comm 1 used]

/-- What has been read of a template is found in its parts. -/
theorem parts_of_template {used : Nat} {state : TemplateState}
    (isTemplate : (templateFrom used state runes).token = .template) :
    (∀ part ∈ state.parts, part ∈ (templateFrom used state runes).parts) ∧
      ∃ part ∈ (templateFrom used state runes).parts, state.current <+: part.toList := by
  fun_induction templateFrom used state runes with
  | case1 => cases isTemplate
  | case2 _ _ _ _ inductionHypothesis => exact inductionHypothesis isTemplate
  | case3 state => exact ⟨fun part => List.mem_append_left _, by simp⟩
  | case4 state rune rest _ _ _ c used _ inductionHypothesis =>
      obtain ⟨before, part, member, front⟩ := inductionHypothesis isTemplate
      exact ⟨before, part, member, (List.prefix_append _ _).trans front⟩
  | case5 state rune rest _ _ _ _ parts _ _ _ inductionHypothesis =>
      obtain ⟨before, -⟩ := inductionHypothesis isTemplate
      exact ⟨fun part member => before part (List.mem_append_left _ member), _,
        before _ (List.mem_append_right _ List.mem_cons_self), by simp⟩
  | case6 => cases isTemplate
  | case7 _ _ _ _ _ _ _ inductionHypothesis =>
      obtain ⟨before, part, member, front⟩ := inductionHypothesis isTemplate
      exact ⟨before, part, member, (List.prefix_append _ _).trans front⟩

theorem Passes.of_succ_eq_closed {found : ReplacementEnd} {length : Nat}
    (closed : found.succ = .closed length) (step : Passes [rune] mode depth mode' depth')
    (others : ∀ {less}, found = .closed less → Passes (runes.take less) mode' depth' mode'' depth'') :
    Passes ((rune :: runes).take length) mode depth mode'' depth'' := by
  cases found with
  | closed less =>
      cases closed
      exact step.cons (others rfl)
  | unclosed _ => cases closed

/-- Up to the brace that it finds the reader passes, at any depth. -/
theorem passes_of_closed {length : Nat} (closed : replacementEnd mode depth runes = .closed length)
    (outer : Nat) : Passes (runes.take length) mode (depth + outer) .code outer := by
  fun_induction replacementEnd mode depth runes generalizing length with
  | case1 | case2 | case3 => cases closed
  | case4 depth _ _ opens inductionHypothesis =>
      refine .of_succ_eq_closed closed (passes_opening (beq_iff_eq.mp opens)) fun inner => ?_
      rw [Nat.add_right_comm]
      exact inductionHypothesis inner
  | case5 =>
      cases closed
      rw [Nat.zero_add]
      exact .nil
  | case6 _ _ _ closes inside inductionHypothesis =>
      rw [Nat.succ_add]
      exact .of_succ_eq_closed closed (passes_closing (beq_iff_eq.mp closes)) inductionHypothesis
  | case7 _ _ _ _ _ starts inductionHypothesis =>
      exact .of_succ_eq_closed closed (passes_quote (by simpa using starts)) inductionHypothesis
  | case8 _ _ _ noOpening noClosing noQuote inductionHypothesis =>
      refine .of_succ_eq_closed closed (passes_plain ?_) inductionHypothesis
      simp only [Bool.not_eq_true] at noOpening noClosing noQuote
      rw [isMark, noOpening, noClosing, Bool.false_or, Bool.false_or, noQuote]
  | case9 _ _ _ _ ends inductionHypothesis =>
      exact .of_succ_eq_closed closed (passes_unquote (by simpa using ends)) inductionHypothesis
  | case10 _ _ _ _ continues backslash inductionHypothesis =>
      exact .of_succ_eq_closed closed
        (passes_backslash (by simpa using continues) (beq_iff_eq.mp backslash)) inductionHypothesis
  | case11 _ _ _ _ continues noBackslash inductionHypothesis =>
      exact .of_succ_eq_closed closed
        (passes_quoted (by simpa using continues) (by simpa using noBackslash)) inductionHypothesis
  | case12 _ _ _ _ inductionHypothesis =>
      exact .of_succ_eq_closed closed passes_escaped inductionHypothesis

theorem Passed.append (first : Passed left) (second : Passed right) : Passed (left ++ right) :=
  fun depth => (first depth).append (second depth)

/-- The reader comes through a replacement with its braces. -/
theorem passed_of_closed {length : Nat} {opening : Rune} {rest : List Rune}
    (opens : opening.char = '\x7b') (closed : replacementEnd .code 0 rest = .closed length) :
    length + 1 ≤ rest.length ∧ Passed (opening :: rest.take (length + 1)) := by
  obtain ⟨body, closing, after, rfl, rfl, closes⟩ := exists_closing_of_closed closed
  have inner := passes_of_closed closed
  have whole : (body ++ closing :: after).take (body.length + 1) = body ++ [closing] := by
    rw [List.append_cons]
    exact List.take_left' (by simp)
  refine ⟨by simp, fun depth => ?_⟩
  have inside := inner (depth + 1)
  rw [List.take_left, Nat.zero_add] at inside
  rw [whole]
  exact (passes_opening opens).cons (inside.append (passes_closing closes))

/-- The next step through a template without marks in its fixed text: the quote that ends it, or an
escape, a replacement or another character, which the reader comes through. -/
theorem step_of_template {state : TemplateState} {rest : List Rune}
    (isTemplate : (templateFrom 0 state (rune :: rest)).token = .template)
    (plain : ∀ part ∈ (templateFrom 0 state (rune :: rest)).parts, ∀ c ∈ part.toList, isMark c = false) :
    rune.char = backQuote ∧ (templateFrom 0 state (rune :: rest)).length = state.length + 1 ∨
      ∃ used state', state'.length = state.length + 1 + used ∧
        templateFrom 0 state (rune :: rest) = templateFrom 0 state' (rest.drop used) ∧
        Passed (rune :: rest.take used) := by
  have plainCurrent {used : Nat} {read : TemplateState}
      (step : templateFrom 0 state (rune :: rest) = templateFrom used read rest) :
      ∀ c ∈ read.current, isMark c = false := by
    obtain ⟨-, part, member, front⟩ := parts_of_template (step ▸ isTemplate)
    exact fun c among => plain part (step ▸ member) c (front.subset among)
  by_cases quote : rune.char = backQuote
  · exact .inl ⟨quote, by simp [templateFrom, quote]⟩
  refine .inr ?_
  by_cases backslash : rune.char = '\\'
  · have step : templateFrom 0 state (rune :: rest) =
        templateFrom (escape rest).2
          { state with length := state.length + 1, current := state.current ++ [(escape rest).1] } rest := by
      rw [backslash] at quote
      simp [templateFrom, backslash, quote]
    have current := plainCurrent step _ (List.mem_append_right _ List.mem_cons_self)
    have plainBackslash : isMark rune.char = false := by
      rw [backslash]
      decide
    cases rest with
    | nil =>
        rw [step] at isTemplate
        cases isTemplate
    | cons escaped rest =>
        obtain ⟨digits, used, enough, hex, itself⟩ := escape_spec escaped rest
        rw [used] at step
        refine ⟨digits + 1, _, rfl, step.trans (templateFrom_drop (Nat.succ_le_succ enough)),
          passed_of_plain ?_⟩
        have plainEscaped : isMark escaped.char = false := by
          by_contra mark
          rw [itself (by simpa using mark)] at current
          exact mark (by simpa using current)
        rw [List.take_succ_cons]
        exact List.forall_mem_cons.mpr ⟨plainBackslash, List.forall_mem_cons.mpr
          ⟨plainEscaped, fun digit member => isMark_of_passes (by decide) (hex digit member)⟩⟩
  by_cases replaces : rune.char = '$' ∧ front? rest = some '\x7b'
  · cases rest with
    | nil => simp [front?] at replaces
    | cons opening rest =>
        obtain ⟨dollar, opens⟩ : rune.char = '$' ∧ opening.char = '\x7b' := by simpa [front?] using replaces
        have plainDollar : isMark rune.char = false := by
          rw [dollar]
          decide
        cases closed : replacementEnd .code 0 rest with
        | unclosed overrun =>
            rw [dollar] at quote backslash
            simp [templateFrom, dollar, quote, opens, front?, closed] at isTemplate
        | closed length =>
            let read : TemplateState :=
              { length := state.length + 1
                parts := state.parts ++ [String.ofList state.current]
                replacements := state.replacements ++ [⟨state.length + 2, rest.take length⟩] }
            have step : templateFrom 0 state (rune :: opening :: rest) =
                templateFrom (length + 2) read (opening :: rest) := by
              rw [dollar] at quote backslash
              simp [templateFrom, dollar, quote, opens, front?, closed, read]
            obtain ⟨enough, passed⟩ := passed_of_closed opens closed
            refine ⟨length + 2, _, rfl, step.trans (templateFrom_drop (Nat.succ_le_succ enough)), ?_⟩
            rw [List.take_succ_cons]
            exact (passed_of_plain (List.forall_mem_singleton.mpr plainDollar)).append passed
  · have step : templateFrom 0 state (rune :: rest) =
        templateFrom 0 { state with length := state.length + 1, current := state.current ++ [rune.char] }
          rest := by
      rw [templateFrom, if_neg (by simpa using quote), if_neg (by simpa using backslash),
        if_neg (by simpa using replaces)]
    have current := plainCurrent step _ (List.mem_append_right _ List.mem_cons_self)
    exact ⟨0, _, rfl, step, passed_of_plain (List.forall_mem_singleton.mpr current)⟩

/-- The reader comes through a template without marks in its fixed text. -/
theorem exists_passed_of_template {state : TemplateState}
    (isTemplate : (templateFrom 0 state runes).token = .template)
    (plain : ∀ part ∈ (templateFrom 0 state runes).parts, ∀ c ∈ part.toList, isMark c = false) :
    ∃ count, (templateFrom 0 state runes).length = state.length + count ∧ Passed (runes.take count) := by
  induction size : runes.length using Nat.strongRecOn generalizing state runes with
  | ind size inductionHypothesis =>
      subst size
      cases runes with
      | nil => cases isTemplate
      | cons rune rest =>
          rcases step_of_template isTemplate plain with
            ⟨quote, length⟩ | ⟨used, state', length, step, passed⟩
          · have single : isMark rune.char = false := by
              rw [quote]
              decide
            exact ⟨1, length, passed_of_plain (List.forall_mem_singleton.mpr single)⟩
          · rw [step] at isTemplate plain ⊢
            obtain ⟨count, total, others⟩ := inductionHypothesis (rest.drop used).length
              (by simp only [List.length_drop, List.length_cons]; omega) isTemplate plain rfl
            refine ⟨used + count + 1, by omega, ?_⟩
            rw [List.take_succ_cons, List.take_add, ← List.cons_append]
            exact passed.append others

/-! ## Numbers -/

theorem Passed.nil : Passed [] :=
  fun _ => .nil

theorem Passed.cons (plain : isMark rune.char = false) (rest : Passed runes) : Passed (rune :: runes) :=
  fun depth => (passes_plain plain).cons (rest depth)

theorem passed_fraction (runes : List Rune) : Passed (runes.take (fractionLength runes)) := by
  cases runes with
  | nil => exact .nil
  | cons point rest =>
      simp only [fractionLength]
      split
      · next starts =>
        have char : point.char = '.' := by simp_all
        rw [List.take_succ_cons, take_length_leading]
        refine .cons ?_ (passed_leading (by decide) rest)
        rw [char]
        decide
      · exact .nil

theorem passed_exponent (runes : List Rune) : Passed (runes.take (exponentLength runes)) := by
  match runes with
  | [] => exact .nil
  | [_] => exact .nil
  | mark :: next :: rest =>
      rw [exponentLength_cons_cons]
      split
      · next starts =>
        simp only [Bool.and_eq_true, Bool.or_eq_true, beq_iff_eq] at starts
        obtain ⟨mark, next⟩ := starts
        rw [List.take_succ_cons, List.take_succ_cons, take_length_leading]
        refine .cons ?_ (.cons ?_ (passed_leading (by decide) rest))
        · rcases mark with same | same <;> rw [same] <;> decide
        · rcases next with (digit | same) | same
          · exact isMark_of_passes (by decide) digit
          · rw [same]
            decide
          · rw [same]
            decide
      · exact .nil

theorem passed_number (runes : List Rune) : Passed (runes.take (numberLength runes)) := by
  rw [numberLength_eq]
  split
  · next starts =>
    match runes with
    | [] | [_] => simp [startsHex, front?] at starts
    | zero :: mark :: rest =>
        obtain ⟨isZero, hexMark⟩ : zero.char = '0' ∧ (mark.char = 'x' ∨ mark.char = 'X') := by
          simpa [startsHex, front?] using starts
        rw [Nat.add_comm, List.take_succ_cons, List.take_succ_cons, List.drop_succ_cons,
          List.drop_succ_cons, List.drop_zero, take_length_leading]
        refine .cons ?_ (.cons ?_ (passed_leading (by decide) rest))
        · rw [isZero]
          decide
        · rcases hexMark with same | same <;> rw [same] <;> decide
  · rw [numberLength.decimalLength, List.take_add, List.take_add, take_length_leading]
    exact ((passed_leading (by decide) runes).append (passed_fraction _)).append (passed_exponent _)

/-! ## Lexemes -/

end Recognized

/-- The number of braces that are open after a token, none if it closes one that was not opened. -/
def Token.braceDepth : Token → Nat → Option Nat
  | .leftBrace, depth => some (depth + 1)
  | .rightBrace, 0 => none
  | .rightBrace, outer + 1 => some outer
  | _, depth => some depth

theorem Token.braceDepth_of_ne {token : Token} (noOpening : token ≠ .leftBrace)
    (noClosing : token ≠ .rightBrace) (depth : Nat) : token.braceDepth depth = some depth := by
  unfold braceDepth
  split <;> simp_all

namespace Recognized

variable {newlineEnds : Bool} {first : Rune} {rest : List Rune} {found : Recognized}

/-- What an operator is made of. -/
theorem operator?_marks {c : Char} {following : Option Char} {token : Token} {length : Nat}
    (found : operator? c following = some (token, length)) :
    c = '\x7b' ∧ token = .leftBrace ∧ length = 1 ∨ c = '\x7d' ∧ token = .rightBrace ∧ length = 1 ∨
      isMark c = false ∧ token ≠ .leftBrace ∧ token ≠ .rightBrace ∧
        (length = 1 ∨ length = 2 ∧ following.any isMark = false) := by
  rcases operator?_cases found with ⟨rfl, sign⟩ | ⟨rfl, second, rfl, digraph⟩
  · have marks : ∀ sign ∈ unigraphs, sign.1 = '\x7b' ∧ sign.2 = .leftBrace ∨
        sign.1 = '\x7d' ∧ sign.2 = .rightBrace ∨
        isMark sign.1 = false ∧ sign.2 ≠ .leftBrace ∧ sign.2 ≠ .rightBrace := by decide
    rcases marks _ sign with opens | closes | plain
    · exact .inl ⟨opens.1, opens.2, rfl⟩
    · exact .inr (.inl ⟨closes.1, closes.2, rfl⟩)
    · exact .inr (.inr ⟨plain.1, plain.2.1, plain.2.2, .inl rfl⟩)
  · have marks : ∀ digraph ∈ digraphs, isMark digraph.1 = false ∧ digraph.2.2 ≠ .leftBrace ∧
        digraph.2.2 ≠ .rightBrace ∧ isMark digraph.2.1 = false := by decide
    obtain ⟨plain, noOpening, noClosing, second⟩ := marks _ digraph
    exact .inr (.inr ⟨plain, noOpening, noClosing, .inr ⟨rfl, second⟩⟩)

theorem passes_symbol (starts : StartsSymbol first rest)
    (braces : (symbol first.char (front? rest)).token.braceDepth depth = some depth') :
    Passes ((first :: rest).take (symbol first.char (front? rest)).length) .code depth .code depth' := by
  cases operator : operator? first.char (front? rest) with
  | none =>
      have plain : isMark first.char = false := by
        have noBrace : first.char ≠ '\x7b' ∧ first.char ≠ '\x7d' := by
          constructor <;> rintro same <;> rw [same] at operator <;> cases operator
        simp [isMark, noBrace, starts.noQuote]
      rw [symbol, operator] at braces ⊢
      cases braces
      exact passes_plain plain
  | some recognized =>
      obtain ⟨token, length⟩ := recognized
      have found := operator?_marks operator
      rw [symbol, operator] at braces ⊢
      dsimp only at braces ⊢
      rcases found with ⟨opens, rfl, rfl⟩ | ⟨closes, rfl, rfl⟩ | ⟨plain, noOpening, noClosing, size⟩
      · cases braces
        exact passes_opening opens
      · cases depth with
        | zero => cases braces
        | succ outer =>
            cases braces
            exact passes_closing closes
      · rw [Token.braceDepth_of_ne noOpening noClosing] at braces
        cases braces
        rcases size with rfl | ⟨rfl, second⟩
        · exact passes_plain plain
        · refine Passed.cons plain (passed_of_plain fun rune member => ?_) depth
          cases rest with
          | nil => cases member
          | cons next more =>
              rw [List.take_succ_cons, List.take_zero, List.mem_singleton] at member
              rw [member]
              simpa [front?] using second

/-- Over a lexeme that is neither a comment nor a template the reader counts braces as the scanner does. -/
theorem Branch.passes (branch : Branch newlineEnds first rest found) (closed : found.token ≠ .badString)
    (own : found.token = .comment ∨ found.token = .template → Passed ((first :: rest).take found.length))
    (braces : found.token.braceDepth depth = some depth') :
    Passes ((first :: rest).take found.length) .code depth .code depth' := by
  cases branch with
  | newline newline _ =>
      cases braces
      refine passes_plain ?_
      rw [newline]
      decide
  | blanks _ _ =>
      cases braces
      rw [blanks_eq, take_length_leading]
      refine passed_leading ?_ _ depth
      cases newlineEnds <;> decide
  | comment _ _ =>
      cases braces
      exact own (.inl rfl) depth
  | word _ =>
      rw [Recognized.word, Token.braceDepth_of_ne (ofWord_ne (by decide) (by decide) _)
        (ofWord_ne (by decide) (by decide) _)] at braces
      cases braces
      rw [Recognized.word, take_length_leading]
      exact passed_leading (by decide) _ depth
  | number _ =>
      cases braces
      exact passed_number _ depth
  | string quote =>
      have whole : (quotation first.char 0 rest).closed = true := by
        by_contra opened
        exact closed (by simp [Recognized.string, opened])
      have isString : (Recognized.string first.char (first :: rest)).token = .string := by
        simp [Recognized.string, whole]
      rw [isString] at braces
      cases braces
      exact (passes_quote quote).cons (passes_quotation quote whole)
  | template _ =>
      have isTemplate : (Recognized.template (first :: rest)).token = .template :=
        (token_templateFrom 0 {} _).resolve_right closed
      rw [isTemplate] at braces
      cases braces
      exact own (.inr isTemplate) depth
  | symbol starts => exact passes_symbol starts braces

end Recognized

end Reckon
