import Mathlib.Data.List.Forall2
import Reckon.Proofs.Arena.Positions
import Reckon.Proofs.Definition.Shadowing

/-!
# Guarded points

A point of a run is guarded if every call in progress and every function of the program is at a layer:
either it has nothing to do with the compared frame, or all names that stand for parameters in it are
clear.  Each move leads from a guarded point to a guarded one.
-/

namespace Reckon

/-! ## Layers of activations and functions -/

namespace Layer

variable (comparison : Comparison)

/-- The layer of what runs in an activation. -/
def At (arena : Arena) (index : Nat) : Layer → Prop
  | idle => True
  | outside => ¬ arena.Under comparison index
  | inside live static => arena.Under comparison index ∧
    (∃ activation, arena.activations[index]? = some activation ∧ activation.static = static) ∧
    ∀ name ∈ live, name ∈ comparison.params ∧ arena.Clear comparison name index

/-- The layer of a function that was created in an activation. -/
def Enters (arena : Arena) (parent : Nat) (static : Option FrameId) (params : List String) :
    Layer → Prop
  | idle => False
  | outside => static ≠ some comparison.frame ∧ ¬ arena.Under comparison parent
  | inside live inner => inner = static ∧ (∀ name ∈ live, name ∈ comparison.params) ∧
    (static = some comparison.frame ∧ params = comparison.params ∨
      static ≠ some comparison.frame ∧ arena.Under comparison parent ∧
        ∀ name ∈ live, arena.Clear comparison name parent ∧ name ∉ params ∧
          ∀ frame, static = some frame → name ∈ comparison.guarded frame)

variable {comparison} {before after : Arena} {index parent : Nat} {layer : Layer}

theorem At.follows (here : layer.At comparison before index)
    (follows : before.Follows comparison after) (sound : before.Sound) (laterSound : after.Sound)
    (inBefore : index < before.size) (inAfter : index < after.size) :
    layer.At comparison after index := by
  cases layer with
  | idle =>
      trivial
  | outside =>
      intro under
      exact here (follows.under_of_after laterSound under inBefore)
  | inside live static =>
      obtain ⟨under, ⟨activation, found, isStatic⟩, clear⟩ := here
      obtain ⟨later, laterFound, moved⟩ := follows.exists_later found inAfter
      refine ⟨follows.under sound under inAfter, ⟨later, laterFound, ?_⟩, fun name isLive => ?_⟩
      · exact moved.static.trans isStatic
      · obtain ⟨isParam, isClear⟩ := clear name isLive
        exact ⟨isParam, follows.clear sound isClear inAfter⟩

theorem Enters.follows {static : Option FrameId} {params : List String}
    (enters : layer.Enters comparison before parent static params)
    (follows : before.Follows comparison after) (sound : before.Sound) (laterSound : after.Sound)
    (inBefore : parent < before.size) (inAfter : parent < after.size) :
    layer.Enters comparison after parent static params := by
  cases layer with
  | idle =>
      exact enters
  | outside =>
      obtain ⟨other, notUnder⟩ := enters
      refine ⟨other, fun under => ?_⟩
      exact notUnder (follows.under_of_after laterSound under inBefore)
  | inside live inner =>
      obtain ⟨same, areParams, own | ⟨other, under, clear⟩⟩ := enters
      · exact ⟨same, areParams, .inl own⟩
      · refine ⟨same, areParams, .inr ⟨other, follows.under sound under inAfter, ?_⟩⟩
        intro name isLive
        obtain ⟨isClear, notParam, guarded⟩ := clear name isLive
        exact ⟨follows.clear sound isClear inAfter, notParam, guarded⟩

theorem Enters.params_eq {static : Option FrameId} {params : List String}
    (enters : layer.Enters comparison before parent static params)
    (own : static = some comparison.frame) : params = comparison.params := by
  cases layer with
  | idle =>
      exact enters.elim
  | outside =>
      exact absurd own enters.1
  | inside live inner =>
      obtain ⟨_, _, ⟨_, same⟩ | ⟨other, _⟩⟩ := enters
      · exact same
      · exact absurd own other

/-- The layer of a function is that of its activation when it is entered. -/
theorem Enters.enter {arena : Arena} {static : Option FrameId} {params : List String}
    {args : List Value}
    (enters : layer.Enters comparison arena parent static params) (sound : arena.Sound)
    (laterSound : (arena.enter parent static (Eval.parameterRecord params args)).Sound)
    (inRange : parent < arena.size) :
    layer.At comparison (arena.enter parent static (Eval.parameterRecord params args))
      arena.size := by
  have follows : arena.Follows comparison
      (arena.enter parent static (Eval.parameterRecord params args)) :=
    arena.follows_enter parent static (Eval.parameterRecord params args)
  have found : (arena.enter parent static (Eval.parameterRecord params args)).activations[arena.size]? =
      some { parent := some parent, static, bindings := Eval.parameterRecord params args } := by
    rw [Arena.getElem?_enter, if_pos rfl]
  have inAfter : parent < (arena.enter parent static (Eval.parameterRecord params args)).size := by
    rw [Arena.size, Arena.enter, Array.size_push]
    exact Nat.lt_succ_of_lt inRange
  cases layer with
  | idle =>
      trivial
  | outside =>
      obtain ⟨other, notUnder⟩ := enters
      intro under
      obtain ⟨_, same, deeper⟩ := under.parent found other
      cases same
      exact notUnder (follows.under_of_after laterSound deeper inRange)
  | inside live inner =>
      obtain ⟨rfl, areParams, ⟨own, _⟩ | ⟨other, under, clear⟩⟩ := enters
      · exact ⟨.own found own, ⟨_, found, rfl⟩, fun name isLive => ⟨areParams name isLive, .own found own⟩⟩
      · refine ⟨.inside found rfl (follows.under sound under inAfter), ⟨_, found, rfl⟩, ?_⟩
        intro name isLive
        obtain ⟨isClear, notParam, guarded⟩ := clear name isLive
        refine ⟨areParams name isLive, .inside found rfl other guarded ?_
          (follows.clear sound isClear inAfter)⟩
        intro bound
        exact notParam (Eval.contains_parameterRecord.mp bound)

end Layer

namespace Configuration

/-! ## Guarded points -/

variable (comparison : Comparison)

/-- The layers of what runs at some places. -/
abbrev Layered (machine : Machine) : List Layer → List (Nat × Nat) → Prop :=
  List.Forall₂ fun layer position =>
    layer.At comparison (machine.realmAt position.1).arena position.2

/-- After a move of the running realm, a new function of the program is at a layer. -/
def Provides (point after : Configuration) : Prop :=
  ∀ function ∈ after.machine.store.functions, function.code.home? = none ∨
    (∃ earlier ∈ point.machine.store.functions, earlier.code = function.code) ∨
    ∃ parent static params body, ∃ layer : Layer,
      function.code = .closure point.machine.realm parent static params body ∧
      layer.Enters comparison after.machine.arena parent static params ∧
      ∀ node ∈ body.visit Node.stays, layer.Allows comparison node

/-- Every call in progress and every function of the program is at a layer. -/
structure Guarded (layers : List Layer) (point : Configuration) : Prop where
  supplied : ∀ realm, (point.machine.realmAt realm).arena.Supplied comparison
  closures : ∀ function ∈ point.machine.store.functions, ∀ realm parent static params body,
    function.code = .closure realm parent static params body →
      ∃ layer : Layer, layer.Enters comparison (point.machine.realmAt realm).arena parent static params ∧
        ∀ node ∈ body.visit Node.stays, layer.Allows comparison node
  layers : Layered comparison point.machine layers point.positions

variable {comparison} {point after : Configuration} {layers : List Layer}

section Advances

variable (guarded : Guarded comparison layers point) (sound : point.Sound)
  (advances : point.Advances after)
  (follows : point.machine.arena.Follows comparison after.machine.arena)

include advances follows

/-- The other realms stay as they are. -/
theorem Advances.arena_follows (realm : Nat) :
    (point.machine.realmAt realm).arena.Follows comparison (after.machine.realmAt realm).arena := by
  by_cases same : realm = point.machine.realm
  · rw [same, advances.realmAt_running, Machine.realmAt_running]
    exact follows
  · rw [advances.realmAt_of_ne same]
    exact Arena.follows_refl _

include sound

theorem Advances.layered {positions : List (Nat × Nat)} {kept : List Layer}
    (here : Layered comparison point.machine kept positions)
    (inBefore : positions ⊆ point.positions) (inAfter : positions ⊆ after.positions) :
    Layered comparison after.machine kept positions := by
  have afterSound := advances.sound sound
  induction here with
  | nil =>
      exact .nil
  | cons head tail inductionHypothesis =>
      obtain ⟨headBefore, tailBefore⟩ := List.cons_subset.mp inBefore
      obtain ⟨headAfter, tailAfter⟩ := List.cons_subset.mp inAfter
      refine .cons ?_ (inductionHypothesis tailBefore tailAfter)
      exact head.follows (advances.arena_follows follows _) (sound.arenas _) (afterSound.arenas _)
        (sound.lt_of_mem_positions headBefore) (afterSound.lt_of_mem_positions headAfter)

include guarded

/-- What a move of the running realm keeps. -/
theorem Guarded.advance {kept : List Layer}
    (supplied : after.machine.arena.Supplied comparison)
    (provides : Provides comparison point after)
    (layered : Layered comparison after.machine kept after.positions) :
    Guarded comparison kept after := by
  have afterSound := advances.sound sound
  constructor
  case supplied =>
    intro realm
    by_cases same : realm = point.machine.realm
    · rw [same, advances.realmAt_running]
      exact supplied
    · rw [advances.realmAt_of_ne same]
      exact guarded.supplied realm
  case closures =>
    intro function member realm parent static params body code
    rcases provides function member with
      none | ⟨earlier, isEarlier, same⟩ | ⟨_, _, _, _, layer, isCreated, enters, allows⟩
    · rw [code] at none
      cases none
    · rw [code] at same
      obtain ⟨layer, enters, allows⟩ :=
        guarded.closures earlier isEarlier realm parent static params body same
      have before := sound.closures earlier isEarlier realm parent static params body same
      have after := afterSound.closures function member realm parent static params body code
      refine ⟨layer, enters.follows (advances.arena_follows follows realm) (sound.arenas realm)
        (afterSound.arenas realm) before.lt_size after.lt_size, allows⟩
    · rw [code] at isCreated
      cases isCreated
      rw [advances.realmAt_running]
      exact ⟨layer, enters, allows⟩
  case layers => exact layered

/-- A move that starts and ends no call. -/
theorem Guarded.advance_within (pending : after.pending = point.pending)
    (current : after.machine.current = point.machine.current)
    (supplied : after.machine.arena.Supplied comparison)
    (provides : Provides comparison point after) :
    Guarded comparison layers after := by
  have positions := advances.positions_eq pending current
  refine guarded.advance sound advances follows supplied provides ?_
  rw [positions]
  exact advances.layered sound follows guarded.layers (List.Subset.refl _)
    (by rw [positions]; exact List.Subset.refl _)

end Advances

/-! ## Moves -/

section Moves

variable (guarded : Guarded comparison layers point) (sound : point.Sound)

include guarded in
theorem Guarded.supplied_running : point.machine.arena.Supplied comparison := by
  have here := guarded.supplied point.machine.realm
  rwa [Machine.realmAt_running] at here

include guarded sound

theorem Guarded.extend {store : Store} (extended : point.machine.store.Extends store) :
    Guarded comparison layers { point with machine := { point.machine with store } } := by
  refine guarded.advance_within sound (sound.advances_extend extended) (Arena.follows_refl _) rfl rfl
    guarded.supplied_running ?_
  intro function member
  rcases extended.added function member with none | old
  · exact .inl none
  · exact .inr (.inl old)

theorem Guarded.report (output : Output) (context : Context) :
    Guarded comparison layers
      { point with machine := { point.machine with output, context } } := by
  refine guarded.advance_within sound (sound.advances_report output context)
    (Arena.follows_refl _) rfl rfl guarded.supplied_running ?_
  intro function member
  exact .inr (.inl ⟨function, member, rfl⟩)

theorem Guarded.bind {index : Nat} {name : String}
    (admits : point.machine.arena.Admits comparison index name) (value : Value) :
    Guarded comparison layers { point with machine := point.machine.bindAt index name value } := by
  have follows := Arena.follows_set admits value
  refine guarded.advance_within sound (sound.advances_bind index name value) follows rfl rfl ?_ ?_
  · exact guarded.supplied_running.follows_of_size_le follows (Nat.le_of_eq (Arena.size_modify ..))
  · intro function member
    exact .inr (.inl ⟨function, member, rfl⟩)

theorem Guarded.create {params : List String} {static : Option FrameId} {body : Body} {layer : Layer}
    (enters : layer.Enters comparison point.machine.arena point.machine.current static params)
    (allows : ∀ node ∈ body.visit Node.stays, layer.Allows comparison node) (name : String) :
    Guarded comparison layers
      { point with machine := point.machine.create name params static body } := by
  have advances := sound.advances_create name params static body
  have follows : point.machine.arena.Follows comparison
      (point.machine.arena.capture point.machine.current) := Arena.follows_capture ..
  have size : (point.machine.arena.capture point.machine.current).size = point.machine.arena.size :=
    Arena.size_modify ..
  refine guarded.advance_within sound advances follows rfl rfl ?_ ?_
  · exact guarded.supplied_running.follows_of_size_le follows (Nat.le_of_eq size)
  · intro function member
    simp only [Machine.create, Store.newFunction, Array.mem_push] at member
    rcases member with old | rfl
    · exact .inr (.inl ⟨function, old, rfl⟩)
    · refine .inr (.inr ⟨_, _, _, _, layer, rfl, ?_, allows⟩)
      exact enters.follows follows sound.arena advances.arena sound.current_lt
        (Nat.lt_of_lt_of_eq sound.current_lt size.symm)

theorem Guarded.enter {parent : Nat} {static : Option FrameId} {params : List String} {body : Body}
    {layer : Layer}
    (known : ∃ function ∈ point.machine.store.functions,
      function.code = .closure point.machine.realm parent static params body)
    (enters : layer.Enters comparison point.machine.arena parent static params)
    (args : List Value) :
    Guarded comparison (layer :: layers)
      { machine := point.machine.enter parent static (Eval.parameterRecord params args)
        pending :=
          .call point.machine.arena.size point.machine.current point.machine.depth :: point.pending
        serial := fun realm index =>
          if realm = point.machine.realm ∧ index = point.machine.arena.size then point.next
          else point.serial realm index
        next := point.next + 1 } := by
  have advances := sound.advances_enter (Eval.parameterRecord params args) known
  have follows : point.machine.arena.Follows comparison
      (point.machine.arena.enter parent static (Eval.parameterRecord params args)) :=
    Arena.follows_enter ..
  have inRange : parent < point.machine.arena.size := by
    obtain ⟨function, member, code⟩ := known
    have captured := sound.closures function member _ _ _ _ _ code
    rw [Machine.realmAt_running] at captured
    exact captured.lt_size
  refine guarded.advance sound advances follows ?_ ?_ ?_
  · refine guarded.supplied_running.follows follows fun index activation new found isOwn => ?_
    rw [Machine.enter, Arena.getElem?_enter] at found
    split at found
    · cases found
      intro name isParam
      exact Eval.contains_parameterRecord.mpr (by rwa [enters.params_eq isOwn])
    · have old : index < point.machine.arena.size := (Array.getElem?_eq_some_iff.mp found).1
      omega
  · intro function member
    exact .inr (.inl ⟨function, member, rfl⟩)
  · have entered := enters.enter sound.arena advances.arena inRange
    rw [positions_enter]
    refine .cons ?_ ?_
    · rw [advances.realmAt_running]
      exact entered
    · refine advances.layered sound follows guarded.layers (List.Subset.refl _) ?_
      rw [positions_enter]
      exact List.subset_cons_self ..

end Moves

theorem Guarded.leave {layer : Layer} (guarded : Guarded comparison (layer :: layers) point)
    (sound : point.Sound) {index caller depth : Nat} {rest : List Pending}
    (innermost : point.pending = .call index caller depth :: rest) :
    Guarded comparison layers
      { point with machine := point.machine.leave index caller depth, pending := rest } := by
  have advances := sound.advances_leave innermost
  have follows : point.machine.arena.Follows comparison (point.machine.arena.release index) :=
    Arena.follows_release ..
  have before := guarded.layers
  rw [positions_of_call innermost] at before
  refine guarded.advance sound advances follows ?_ ?_ ?_
  · exact guarded.supplied_running.follows_of_size_le follows (Arena.size_release_le ..)
  · intro function member
    exact .inr (.inl ⟨function, member, rfl⟩)
  · cases before with
    | cons _ outer =>
        refine advances.layered sound follows outer ?_ (List.Subset.refl _)
        rw [positions_of_call innermost]
        exact List.subset_cons_self ..

/-- Which realm runs does not matter. -/
theorem Guarded.switch {kept : List Layer} (guarded : Guarded comparison layers point)
    (sound : point.Sound) (target : Nat) (pending : List Pending)
    (layered : Layered comparison point.machine kept
      (positionsFrom (fun realm => (point.machine.realmAt realm).current) target pending)) :
    Guarded comparison kept { point with machine := point.machine.switchTo target, pending } := by
  have same := point.machine.realmAt_switchTo sound.running target
  constructor
  case supplied =>
    intro realm
    rw [same]
    exact guarded.supplied realm
  case closures =>
    intro function member realm parent static params body code
    rw [same]
    exact guarded.closures function member realm parent static params body code
  case layers =>
    simp only [positions, Layered, same]
    exact layered

end Configuration

end Reckon
