import Mathlib.Data.List.Forall2
import Reckon.Proofs.Value.Record
import Reckon.Session.Arena

/-!
# Chains of activations

An arena is sound if the first activation is global and every other one was entered from a captured
activation before it.  In a sound arena a walk outwards ends at the global activation, so no search is
cut short by its bound.  A captured activation is never given back: each operation on an arena keeps
its place, its parent and its frame, and takes no variable from it.
-/

namespace Reckon

/-- Setting a key keeps the keys before it in their order. -/
theorem Record.keys_set (record : Record) (key : String) (value : Value) :
    record.keys <+: (record.set key value).keys := by
  rw [keys_set_eq]
  split
  · exact List.prefix_refl _
  · exact List.prefix_append _ _

/-- An activation at a later time, with more variables perhaps. -/
structure Activation.Continues (earlier later : Activation) : Prop where
  parent : later.parent = earlier.parent
  static : later.static = earlier.static
  captured : earlier.captured = true → later.captured = true
  keys : earlier.bindings.keys <+: later.bindings.keys

theorem Activation.Continues.refl (activation : Activation) : activation.Continues activation :=
  ⟨rfl, rfl, fun captured => captured, List.prefix_refl _⟩

theorem Activation.Continues.trans {first second third : Activation} (before : first.Continues second)
    (after : second.Continues third) : first.Continues third where
  parent := after.parent.trans before.parent
  static := after.static.trans before.static
  captured captured := after.captured (before.captured captured)
  keys := before.keys.trans after.keys

namespace Arena

/-- An activation in which a function was created. -/
def Captured (arena : Arena) (index : Nat) : Prop :=
  ∃ activation, arena.activations[index]? = some activation ∧ activation.captured = true

/-- The first activation is global, and each other one lies inside a captured one before it. -/
structure Sound (arena : Arena) : Prop where
  global : ∃ activation, arena.activations[0]? = some activation ∧ activation.parent = none
  nested : ∀ {index activation}, arena.activations[index]? = some activation → index ≠ 0 →
    ∃ parent, activation.parent = some parent ∧ parent < index ∧ arena.Captured parent

/-- Captured activations are the same in a later arena, up to their variables. -/
structure Preserves (before after : Arena) : Prop where
  kept : ∀ {index : Nat} {activation : Activation},
    before.activations[index]? = some activation → activation.captured = true →
      ∃ later, after.activations[index]? = some later ∧ activation.Continues later

variable {arena before after : Arena} {index : Nat}

/-- An activation with a parent is not the first one, and its parent is captured. -/
theorem Sound.parent (sound : arena.Sound) {activation : Activation} {parent : Nat}
    (found : arena.activations[index]? = some activation)
    (isParent : activation.parent = some parent) : parent < index ∧ arena.Captured parent := by
  have notFirst : index ≠ 0 := by
    rintro rfl
    obtain ⟨first, firstFound, outermost⟩ := sound.global
    rw [found] at firstFound
    cases firstFound
    rw [isParent] at outermost
    cases outermost
  obtain ⟨known, knownParent, before, captured⟩ := sound.nested found notFirst
  rw [isParent] at knownParent
  cases knownParent
  exact ⟨before, captured⟩

theorem Captured.lt_size (captured : arena.Captured index) : index < arena.size := by
  obtain ⟨activation, found, _⟩ := captured
  exact (Array.getElem?_eq_some_iff.mp found).1

theorem Preserves.refl (arena : Arena) : arena.Preserves arena := by
  constructor
  intro index activation found captured
  exact ⟨activation, found, .refl activation⟩

theorem Preserves.trans {last : Arena} (first : before.Preserves after)
    (second : after.Preserves last) : before.Preserves last := by
  constructor
  intro index activation found captured
  obtain ⟨middle, middleFound, continues⟩ := first.kept found captured
  obtain ⟨later, laterFound, laterContinues⟩ :=
    second.kept middleFound (continues.captured captured)
  exact ⟨later, laterFound, continues.trans laterContinues⟩

theorem Preserves.captured (preserves : before.Preserves after) (captured : before.Captured index) :
    after.Captured index := by
  obtain ⟨activation, found, isCaptured⟩ := captured
  obtain ⟨later, laterFound, continues⟩ := preserves.kept found isCaptured
  exact ⟨later, laterFound, continues.captured isCaptured⟩

theorem Sound.size_pos (sound : arena.Sound) : 0 < arena.size := by
  obtain ⟨activation, found, _⟩ := sound.global
  exact (Array.getElem?_eq_some_iff.mp found).1

/-- The arena before the first call. -/
theorem sound_new : ({} : Arena).Sound := by
  constructor
  · exact ⟨_, rfl, rfl⟩
  · intro index activation found notFirst
    have inRange : index < 1 := (Array.getElem?_eq_some_iff.mp found).1
    omega

theorem not_captured_new : ¬ ({} : Arena).Captured index := by
  rintro ⟨activation, found, captured⟩
  have first : index = 0 := Nat.lt_one_iff.mp (Array.getElem?_eq_some_iff.mp found).1
  subst first
  cases found
  cases captured

/-! ## Operations -/

section Modify

variable {change : Activation → Activation}

theorem getElem?_modify (arena : Arena) (index place : Nat) (change : Activation → Activation) :
    (arena.modify index change).activations[place]? =
      if index = place then (arena.activations[place]?).map change
      else arena.activations[place]? := by
  rw [modify, Array.getElem?_modify]

theorem size_modify (arena : Arena) (index : Nat) (change : Activation → Activation) :
    (arena.modify index change).size = arena.size := by
  simp [modify, size]

/-- A change that leaves an activation what it is. -/
def IsGentle (change : Activation → Activation) : Prop :=
  ∀ activation : Activation, activation.Continues (change activation)

theorem IsGentle.exists_before (gentle : IsGentle change) {place : Nat} {activation : Activation}
    (found : (arena.modify index change).activations[place]? = some activation) :
    ∃ earlier, arena.activations[place]? = some earlier ∧ activation.parent = earlier.parent := by
  rw [getElem?_modify] at found
  split at found
  · obtain ⟨earlier, earlierFound, rfl⟩ := Option.map_eq_some_iff.mp found
    exact ⟨earlier, earlierFound, (gentle earlier).parent⟩
  · exact ⟨activation, found, rfl⟩

theorem IsGentle.exists_after (gentle : IsGentle change) {place : Nat} {activation : Activation}
    (found : arena.activations[place]? = some activation) :
    ∃ later, (arena.modify index change).activations[place]? = some later ∧
      activation.Continues later := by
  by_cases same : index = place
  · refine ⟨change activation, ?_, gentle activation⟩
    rw [getElem?_modify, if_pos same, found]
    rfl
  · refine ⟨activation, ?_, .refl activation⟩
    rw [getElem?_modify, if_neg same, found]

theorem IsGentle.preserves (gentle : IsGentle change) (arena : Arena) (index : Nat) :
    arena.Preserves (arena.modify index change) :=
  ⟨fun found _ => gentle.exists_after found⟩

theorem IsGentle.sound (gentle : IsGentle change) (sound : arena.Sound) (index : Nat) :
    (arena.modify index change).Sound := by
  constructor
  · obtain ⟨activation, found, outermost⟩ := sound.global
    by_cases same : index = 0
    · refine ⟨change activation, ?_, (gentle activation).parent.trans outermost⟩
      rw [getElem?_modify, if_pos same, found]
      rfl
    · refine ⟨activation, ?_, outermost⟩
      rw [getElem?_modify, if_neg same, found]
  · intro place activation found notFirst
    obtain ⟨earlier, earlierFound, sameParent⟩ := gentle.exists_before found
    obtain ⟨parent, isParent, before, captured⟩ := sound.nested earlierFound notFirst
    exact ⟨parent, sameParent.trans isParent, before,
      (gentle.preserves arena index).captured captured⟩

end Modify

theorem isGentle_set (name : String) (value : Value) :
    IsGentle fun activation =>
      { activation with bindings := activation.bindings.set name value } :=
  fun activation => ⟨rfl, rfl, fun captured => captured, activation.bindings.keys_set name value⟩

theorem isGentle_capture : IsGentle fun activation => { activation with captured := true } :=
  fun _ => ⟨rfl, rfl, fun _ => rfl, List.prefix_refl _⟩

theorem captured_capture (inRange : index < arena.size) : (arena.capture index).Captured index := by
  refine ⟨{ arena.activations[index] with captured := true }, ?_, rfl⟩
  rw [capture, getElem?_modify, if_pos rfl, Array.getElem?_eq_getElem inRange]
  rfl

theorem bindings_capture (arena : Arena) (index place : Nat) :
    (arena.capture index).bindings place = arena.bindings place := by
  unfold bindings capture
  rw [getElem?_modify]
  by_cases same : index = place
  · rw [if_pos same, Option.map_map]
    rfl
  · rw [if_neg same]

theorem getElem?_enter (arena : Arena) (parent : Nat) (static : Option FrameId) (bindings : Record)
    (place : Nat) :
    (arena.enter parent static bindings).activations[place]? =
      if place = arena.size then some { parent := some parent, static, bindings }
      else arena.activations[place]? := by
  rw [enter, Array.getElem?_push]
  rfl

/-- An activation from before a call is the same within it. -/
theorem eq_of_getElem?_enter {parent : Nat} {static : Option FrameId} {bindings : Record}
    {earlier later : Activation} (found : arena.activations[index]? = some earlier)
    (laterFound : (arena.enter parent static bindings).activations[index]? = some later) :
    later = earlier := by
  have inRange : index < arena.size := (Array.getElem?_eq_some_iff.mp found).1
  rw [getElem?_enter, if_neg (Nat.ne_of_lt inRange), found] at laterFound
  exact (Option.some.inj laterFound).symm

theorem preserves_enter (arena : Arena) (parent : Nat) (static : Option FrameId)
    (bindings : Record) : arena.Preserves (arena.enter parent static bindings) := by
  constructor
  intro place activation found captured
  have inRange : place < arena.size := (Array.getElem?_eq_some_iff.mp found).1
  refine ⟨activation, ?_, .refl activation⟩
  rw [getElem?_enter, if_neg (Nat.ne_of_lt inRange), found]

theorem Sound.enter (sound : arena.Sound) {parent : Nat} (captured : arena.Captured parent)
    (static : Option FrameId) (bindings : Record) :
    (arena.enter parent static bindings).Sound := by
  have preserves := arena.preserves_enter parent static bindings
  constructor
  · obtain ⟨activation, found, outermost⟩ := sound.global
    refine ⟨activation, ?_, outermost⟩
    rw [getElem?_enter, if_neg (Nat.ne_of_lt sound.size_pos), found]
  · intro place activation found notFirst
    rw [getElem?_enter] at found
    split at found
    · next newest =>
      cases found
      refine ⟨parent, rfl, ?_, preserves.captured captured⟩
      rw [newest]
      exact captured.lt_size
    · obtain ⟨outer, isParent, before, outerCaptured⟩ := sound.nested found notFirst
      exact ⟨outer, isParent, before, preserves.captured outerCaptured⟩

/-- What is given back is the newest activation, and nothing was created in it. -/
theorem release_cases (arena : Arena) (index : Nat) :
    arena.release index = arena ∨
      (index ≠ 0 ∧ index + 1 = arena.size ∧ ¬ arena.Captured index ∧
        arena.release index = ⟨arena.activations.pop⟩) := by
  unfold release
  by_cases kept : index = 0 ∨ index + 1 ≠ arena.size
  · exact .inl (if_pos kept)
  · rw [if_neg kept]
    obtain ⟨notFirst, newest⟩ := not_or.mp kept
    cases found : arena.activations[index]? with
    | none =>
        exact .inl rfl
    | some activation =>
        by_cases captured : activation.captured = true
        · exact .inl (if_pos captured)
        · refine .inr ⟨notFirst, Decidable.not_not.mp newest, ?_, if_neg captured⟩
          rintro ⟨other, otherFound, otherCaptured⟩
          rw [found] at otherFound
          cases otherFound
          exact captured otherCaptured

/-- An activation that is left after a call is the same as within it. -/
theorem eq_of_getElem?_release {place : Nat} {earlier later : Activation}
    (found : arena.activations[place]? = some earlier)
    (laterFound : (arena.release index).activations[place]? = some later) : later = earlier := by
  rcases arena.release_cases index with kept | ⟨_, _, _, popped⟩
  · rw [kept, found] at laterFound
    exact (Option.some.inj laterFound).symm
  · rw [popped, Array.getElem?_pop] at laterFound
    split at laterFound
    · rw [found] at laterFound
      exact (Option.some.inj laterFound).symm
    · cases laterFound

theorem getElem?_pop_of_captured (newest : index + 1 = arena.size) (free : ¬ arena.Captured index)
    {place : Nat} (captured : arena.Captured place) :
    (Array.pop arena.activations)[place]? = arena.activations[place]? := by
  have inRange := captured.lt_size
  have different : place ≠ index := by
    rintro rfl
    exact free captured
  have inPopped : place < arena.activations.size - 1 := by
    unfold size at newest inRange
    omega
  rw [Array.getElem?_pop, if_pos inPopped]

theorem preserves_release (arena : Arena) (index : Nat) : arena.Preserves (arena.release index) := by
  rcases arena.release_cases index with kept | ⟨_, newest, free, popped⟩
  · rw [kept]
    exact .refl arena
  · constructor
    intro place activation found captured
    refine ⟨activation, ?_, .refl activation⟩
    rw [popped, getElem?_pop_of_captured newest free ⟨activation, found, captured⟩, found]

theorem Sound.release (sound : arena.Sound) (index : Nat) : (arena.release index).Sound := by
  have preserves := arena.preserves_release index
  rcases arena.release_cases index with kept | ⟨notFirst, newest, _, popped⟩
  · rw [kept]
    exact sound
  · constructor
    · obtain ⟨activation, found, outermost⟩ := sound.global
      refine ⟨activation, ?_, outermost⟩
      have inPopped : 0 < arena.activations.size - 1 := by
        unfold size at newest
        omega
      rw [popped, Array.getElem?_pop, if_pos inPopped, found]
    · intro place activation found otherThanFirst
      rw [popped, Array.getElem?_pop] at found
      split at found
      · obtain ⟨parent, isParent, before, captured⟩ := sound.nested found otherThanFirst
        exact ⟨parent, isParent, before, preserves.captured captured⟩
      · cases found

theorem size_release_le (arena : Arena) (index : Nat) : (arena.release index).size ≤ arena.size := by
  rcases arena.release_cases index with kept | ⟨_, _, _, popped⟩
  · rewrite [kept]
    exact Nat.le_refl _
  · rw [popped, size, Array.size_pop]
    exact Nat.sub_le _ _

theorem size_pop_of_newest (newest : index + 1 = arena.size) :
    (⟨arena.activations.pop⟩ : Arena).size = index := by
  rw [size, Array.size_pop]
  unfold size at newest
  omega

theorem le_size_release (inRange : index < arena.size) : index ≤ (arena.release index).size := by
  rcases arena.release_cases index with kept | ⟨_, newest, _, popped⟩
  · rw [kept]
    exact Nat.le_of_lt inRange
  · have size := size_pop_of_newest newest
    rewrite [popped, size]
    exact Nat.le_refl _

/-! ## Walks outwards -/

/-- A search is a search of the chain. -/
theorem findFrom_eq_find? (arena : Arena) (test : Activation → Bool) (bound index : Nat) :
    arena.findFrom test bound index =
      (arena.chainFrom bound index).find? fun entry => test entry.2 := by
  induction bound generalizing index with
  | zero =>
      rfl
  | succ bound inductionHypothesis =>
      unfold findFrom chainFrom
      cases arena.activations[index]? with
      | none =>
          rfl
      | some activation =>
          by_cases passed : test activation = true
          · simp [passed]
          · cases outer : activation.parent with
            | none =>
                simp [passed, outer]
            | some parent =>
                simp [passed, outer, inductionHypothesis parent]

/-- A bound above the start of a walk does not matter. -/
theorem Sound.chainFrom_eq (sound : arena.Sound) {bound other : Nat} (enough : index < bound)
    (otherEnough : index < other) : arena.chainFrom bound index = arena.chainFrom other index := by
  induction index using Nat.strongRecOn generalizing bound other with
  | ind index inductionHypothesis =>
      obtain ⟨bound, rfl⟩ := Nat.exists_eq_succ_of_ne_zero (Nat.ne_zero_of_lt enough)
      obtain ⟨other, rfl⟩ := Nat.exists_eq_succ_of_ne_zero (Nat.ne_zero_of_lt otherEnough)
      unfold chainFrom
      cases found : arena.activations[index]? with
      | none =>
          rfl
      | some activation =>
          dsimp only
          cases outer : activation.parent with
          | none =>
              rfl
          | some parent =>
              obtain ⟨before, _⟩ := sound.parent found outer
              have same := inductionHypothesis parent before
                (Nat.lt_of_lt_of_le before (Nat.le_of_lt_succ enough))
                (Nat.lt_of_lt_of_le before (Nat.le_of_lt_succ otherEnough))
              dsimp only
              rw [same]

theorem Sound.findFrom_eq (sound : arena.Sound) {bound other : Nat} (enough : index < bound)
    (otherEnough : index < other) (test : Activation → Bool) :
    arena.findFrom test bound index = arena.findFrom test other index := by
  rw [findFrom_eq_find?, findFrom_eq_find?, sound.chainFrom_eq enough otherEnough]

/-- A walk ends at the global activation. -/
theorem Sound.getLast?_chain (sound : arena.Sound) (inRange : index < arena.size) :
    ∃ activation, (arena.chain index).getLast? = some (0, activation) ∧
      activation.parent = none := by
  have walk (bound : Nat) (enough : index < bound) :
      ∃ activation, (arena.chainFrom bound index).getLast? = some (0, activation) ∧
        activation.parent = none := by
    induction index using Nat.strongRecOn generalizing bound with
    | ind index inductionHypothesis =>
        obtain ⟨bound, rfl⟩ := Nat.exists_eq_succ_of_ne_zero (Nat.ne_zero_of_lt enough)
        unfold chainFrom
        by_cases first : index = 0
        · subst first
          obtain ⟨activation, found, outermost⟩ := sound.global
          exact ⟨activation, by simp [found, outermost], outermost⟩
        · have found := Array.getElem?_eq_getElem inRange
          obtain ⟨parent, isParent, before, captured⟩ := sound.nested found first
          obtain ⟨activation, last, outermost⟩ := inductionHypothesis parent before captured.lt_size
            bound (Nat.lt_of_lt_of_le before (Nat.le_of_lt_succ enough))
          refine ⟨activation, ?_, outermost⟩
          rw [found]
          simp only [isParent]
          rw [List.getLast?_cons, last]
          rfl
  exact walk arena.size inRange

/-- Walks outwards go from an activation to an earlier one until they reach the global one, so that
their bound does not matter. -/
structure Grounded (arena : Arena) : Prop where
  descends : ∀ (index : Nat) (activation : Activation) (parent : Nat),
    arena.activations[index]? = some activation → activation.parent = some parent → parent < index
  starts : ∀ index, index < arena.size →
    ∃ activation, (arena.chain index).head? = some (index, activation)
  ends : ∀ index, index < arena.size →
    ∃ activation, (arena.chain index).getLast? = some (0, activation) ∧ activation.parent = none
  walks : ∀ index bound, index < arena.size → arena.size ≤ bound →
    arena.chainFrom bound index = arena.chain index
  searches : ∀ test index bound, index < arena.size → arena.size ≤ bound →
    arena.findFrom test bound index = arena.find? index test

theorem Sound.grounded (sound : arena.Sound) : arena.Grounded := by
  constructor
  case descends =>
    intro index activation parent found isParent
    exact (sound.parent found isParent).1
  case starts =>
    intro index inRange
    obtain ⟨bound, size⟩ := Nat.exists_eq_succ_of_ne_zero (Nat.ne_zero_of_lt inRange)
    refine ⟨arena.activations[index], ?_⟩
    unfold chain
    rw [size, chainFrom, Array.getElem?_eq_getElem inRange]
    rfl
  case ends =>
    intro index inRange
    exact sound.getLast?_chain inRange
  case walks =>
    intro index bound inRange enough
    exact sound.chainFrom_eq (Nat.lt_of_lt_of_le inRange enough) inRange
  case searches =>
    intro test index bound inRange enough
    exact sound.findFrom_eq (Nat.lt_of_lt_of_le inRange enough) inRange test

/-- A walk passes the activation at its start and what a walk from the activation around it passes. -/
theorem mem_chainFrom_succ {bound : Nat} {entry : Nat × Activation} :
    entry ∈ arena.chainFrom (bound + 1) index ↔
      ∃ activation, arena.activations[index]? = some activation ∧
        (entry = (index, activation) ∨
          ∃ parent, activation.parent = some parent ∧ entry ∈ arena.chainFrom bound parent) := by
  rw [chainFrom]
  cases arena.activations[index]? with
  | none =>
      simp
  | some activation =>
      cases outer : activation.parent with
      | none =>
          simp [outer]
      | some parent =>
          simp [outer]

/-- What a walk passes is in the arena. -/
theorem getElem?_of_mem_chainFrom {bound : Nat} {entry : Nat × Activation}
    (member : entry ∈ arena.chainFrom bound index) :
    arena.activations[entry.1]? = some entry.2 := by
  induction bound generalizing index with
  | zero =>
      cases member
  | succ bound inductionHypothesis =>
      obtain ⟨activation, found, rfl | ⟨parent, _, inner⟩⟩ := mem_chainFrom_succ.mp member
      · exact found
      · exact inductionHypothesis inner

theorem Sound.captured_of_mem_chainFrom (sound : arena.Sound) (captured : arena.Captured index)
    {bound : Nat} {entry : Nat × Activation} (member : entry ∈ arena.chainFrom bound index) :
    arena.Captured entry.1 := by
  induction bound generalizing index with
  | zero =>
      cases member
  | succ bound inductionHypothesis =>
      obtain ⟨activation, found, rfl | ⟨parent, outer, inner⟩⟩ := mem_chainFrom_succ.mp member
      · exact captured
      · exact inductionHypothesis (sound.parent found outer).2 inner

/-- At the same place, the same activation at a later time. -/
def SameEntry (earlier later : Nat × Activation) : Prop :=
  later.1 = earlier.1 ∧ earlier.2.Continues later.2

theorem Preserves.chainFrom (preserves : before.Preserves after) (sound : before.Sound)
    (captured : before.Captured index) (bound : Nat) :
    List.Forall₂ SameEntry (before.chainFrom bound index) (after.chainFrom bound index) := by
  induction bound generalizing index with
  | zero =>
      exact .nil
  | succ bound inductionHypothesis =>
      obtain ⟨activation, found, isCaptured⟩ := captured
      obtain ⟨later, laterFound, continues⟩ := preserves.kept found isCaptured
      unfold Arena.chainFrom
      rw [found, laterFound]
      refine .cons ⟨rfl, continues⟩ ?_
      rw [continues.parent]
      cases outer : activation.parent with
      | none =>
          exact .nil
      | some parent =>
          exact inductionHypothesis (sound.parent found outer).2

/-- The chain of a captured activation stays the same. -/
theorem Preserves.chain (preserves : before.Preserves after) (sound : before.Sound)
    (laterSound : after.Sound) (captured : before.Captured index) :
    List.Forall₂ SameEntry (before.chain index) (after.chain index) := by
  have inRange := captured.lt_size
  have laterInRange := (preserves.captured captured).lt_size
  unfold Arena.chain
  rw [laterSound.chainFrom_eq laterInRange inRange]
  exact preserves.chainFrom sound captured before.size

end Arena

end Reckon
