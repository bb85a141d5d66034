import Reckon.Operator.Arithmetic
import Reckon.Proofs.Data.Basic

/-!
# Following maps

An operator follows the maps of its operands into their entries.  Where two values meet, it goes on with
the entries that meet, and a map that holds itself may be followed for ever.  Whether that has an end
depends on the store alone, and the depth to which maps are followed is enough whenever any depth is.
-/

namespace Reckon

/-- The depth to which operators follow the entries below two values. -/
theorem Store.exists_pairing (store : Store) :
    ∃ depth, store.pairing = depth + 1 ∧ store.nesting ≤ depth + 1 :=
  ⟨store.nesting * store.maps.size + store.maps.size, rfl, by rw [Store.nesting]; omega⟩

/-! ## Runs -/

namespace FollowM

variable {α β : Type} {store after : Store}

theorem run_bind (action : FollowM α) (next : α → FollowM β) (store : Store) :
    (action >>= next).run.run store =
      match action.run.run store with
      | (some value, after) => (next value).run.run after
      | (none, after) => (none, after) := by
  rw [OptionT.run_bind, Option.elimM, StateT.run_bind]
  rcases action.run.run store with ⟨_ | value, after⟩
  · rfl
  · rfl

theorem run_bind_eq_some {action : FollowM α} {next : α → FollowM β} {result : β} {last : Store} :
    (action >>= next).run.run store = (some result, last) ↔ ∃ value after,
      action.run.run store = (some value, after) ∧ (next value).run.run after = (some result, last) := by
  rw [run_bind]
  constructor
  · intro ran
    split at ran
    · next value after first => exact ⟨value, after, first, ran⟩
    · cases ran
  · rintro ⟨value, after, first, ran⟩
    rw [first]
    exact ran

theorem run_pure (value : α) (store : Store) : (pure value : FollowM α).run.run store = (some value, store) :=
  rfl

theorem run_get_bind (next : Store → FollowM α) (store : Store) :
    (get >>= next).run.run store = (next store).run.run store :=
  rfl

/-- An action has an end for a store. -/
def Ends (action : FollowM α) (store : Store) : Prop :=
  ∃ value after, action.run.run store = (some value, after)

theorem ends_of_run_iff {action other : FollowM α} (same : other.run.run store = action.run.run store) :
    other.Ends store ↔ action.Ends store := by
  rw [Ends, same, Ends]

/-- An action at most adds maps to the store, whether it has an end or not. -/
def Adds (action : FollowM α) : Prop :=
  ∀ store : Store, store.AddsMaps (action.run.run store).2

theorem adds_pure (value : α) : Adds (pure value) :=
  fun store => .refl store

theorem adds_failure : Adds (failure : FollowM α) :=
  fun store => .refl store

theorem adds_newMap (record : Record) : Adds (StoreM.newMap record : FollowM Value) :=
  fun store => store.addsMaps_newMap record

theorem Adds.of_run {action : FollowM α} (adds : action.Adds) (ran : (action.run.run store).2 = after) :
    store.AddsMaps after :=
  ran ▸ adds store

theorem Adds.bind {action : FollowM α} {next : α → FollowM β} (adds : action.Adds)
    (goOn : ∀ value, (next value).Adds) : Adds (action >>= next) := by
  intro store
  rw [run_bind]
  rcases ran : action.run.run store with ⟨_ | value, after⟩
  · exact adds.of_run (congrArg Prod.snd ran)
  · exact (adds.of_run (congrArg Prod.snd ran)).trans (goOn value after)

theorem adds_mapM {f : α → FollowM β} (each : ∀ item, (f item).Adds) (items : List α) :
    Adds (items.mapM f) := by
  induction items with
  | nil => exact adds_pure []
  | cons first rest inductionHypothesis =>
      rw [List.mapM_cons]
      refine (each first).bind fun result => ?_
      exact inductionHypothesis.bind fun results => adds_pure (result :: results)

theorem ends_pure (value : α) (store : Store) : (pure value : FollowM α).Ends store :=
  ⟨value, store, rfl⟩

theorem ends_newMap (record : Record) (store : Store) :
    Ends (StoreM.newMap record : FollowM Value) store :=
  ⟨_, _, rfl⟩

/-- An action and what comes next have an end just if both have one. -/
theorem ends_bind_iff {action : FollowM α} {next : α → FollowM β} {second : Prop} (adds : action.Adds)
    (goOn : ∀ value after, store.AddsMaps after → ((next value).Ends after ↔ second)) :
    (action >>= next).Ends store ↔ action.Ends store ∧ second := by
  rcases ran : action.run.run store with ⟨_ | value, after⟩
  · have noEnd : ¬action.Ends store := fun ⟨_, _, found⟩ => nomatch ran.symm.trans found
    refine iff_of_false ?_ fun both => noEnd both.1
    rintro ⟨result, last, found⟩
    obtain ⟨value, middle, first, -⟩ := run_bind_eq_some.mp found
    exact noEnd ⟨value, middle, first⟩
  · have ended : action.Ends store := ⟨value, after, ran⟩
    have goesOn : (action >>= next).run.run store = (next value).run.run after := by rw [run_bind, ran]
    rw [and_iff_right ended, Ends, goesOn]
    exact goOn value after (adds.of_run (congrArg Prod.snd ran))

theorem ends_bind_iff_of_ends {action : FollowM α} {next : α → FollowM β} (adds : action.Adds)
    (goOn : ∀ value after, (next value).Ends after) : (action >>= next).Ends store ↔ action.Ends store := by
  rw [ends_bind_iff adds fun value after _ => iff_of_true (goOn value after) trivial, and_true]

theorem ends_mapM_iff {f : α → FollowM β} {ends : α → Prop} {items : List α} (adds : ∀ item, (f item).Adds)
    (each : ∀ item ∈ items, ∀ after, store.AddsMaps after → ((f item).Ends after ↔ ends item)) :
    (items.mapM f).Ends store ↔ ∀ item ∈ items, ends item := by
  induction items generalizing store with
  | nil => exact iff_of_true ⟨[], store, rfl⟩ nofun
  | cons first rest inductionHypothesis =>
      obtain ⟨here, others⟩ := List.forall_mem_cons.mp each
      rw [List.mapM_cons, List.forall_mem_cons, ← here store (.refl store)]
      refine ends_bind_iff (adds first) fun result after more => ?_
      have later := inductionHypothesis fun item member last evenMore =>
        others item member last (more.trans evenMore)
      have finishes (results : List β) (last : Store) := ends_pure (result :: results) last
      rw [ends_bind_iff_of_ends (adds_mapM adds rest) finishes, later]

/-- A new map of values for keys, made one after the other. -/
def tabulate (keys : List String) (f : String → FollowM Value) : FollowM Value := do
  StoreM.newMap (.ofEntries (← keys.mapM fun key => do return (key, ← f key)))

section Tabulate

variable {f : String → FollowM Value} {keys : List String}

theorem adds_entry (adds : ∀ key, (f key).Adds) (key : String) :
    Adds (do return (key, ← f key) : FollowM (String × Value)) :=
  (adds key).bind fun value => adds_pure (key, value)

theorem adds_tabulate (adds : ∀ key, (f key).Adds) : (tabulate keys f).Adds :=
  (adds_mapM (adds_entry adds) keys).bind fun entries => adds_newMap (.ofEntries entries)

theorem ends_tabulate_iff {ends : String → Prop} (adds : ∀ key, (f key).Adds)
    (each : ∀ key ∈ keys, ∀ after, store.AddsMaps after → ((f key).Ends after ↔ ends key)) :
    (tabulate keys f).Ends store ↔ ∀ key ∈ keys, ends key := by
  rw [tabulate, ends_bind_iff_of_ends (adds_mapM (adds_entry adds) keys) fun entries last =>
    ends_newMap (.ofEntries entries) last]
  refine ends_mapM_iff (adds_entry adds) fun key member after more => ?_
  rw [ends_bind_iff_of_ends (adds key) fun value last => ends_pure (key, value) last]
  exact each key member after more

end Tabulate

/-- An action ends and at most adds maps to the store, and its result is related to the store after it. -/
def Yields (action : FollowM α) (store : Store) (post : α → Store → Prop) : Prop :=
  ∃ value after, action.run.run store = (some value, after) ∧ store.AddsMaps after ∧ post value after

theorem yields_pure {value : α} {post : α → Store → Prop} (satisfied : post value store) :
    Yields (pure value) store post :=
  ⟨value, store, rfl, .refl store, satisfied⟩

theorem Yields.bind {action : FollowM α} {next : α → FollowM β} {middle : α → Store → Prop}
    {post : β → Store → Prop} (yields : Yields action store middle)
    (goOn : ∀ value after, store.AddsMaps after → middle value after → Yields (next value) after post) :
    Yields (action >>= next) store post := by
  obtain ⟨value, after, ran, adds, satisfied⟩ := yields
  obtain ⟨result, last, finished, addsMore, held⟩ := goOn value after adds satisfied
  exact ⟨result, last, run_bind_eq_some.mpr ⟨value, after, ran, finished⟩, adds.trans addsMore, held⟩

theorem Yields.imp {action : FollowM α} {post other : α → Store → Prop} (yields : Yields action store post)
    (implies : ∀ value after, post value after → other value after) : Yields action store other :=
  let ⟨value, after, ran, adds, held⟩ := yields
  ⟨value, after, ran, adds, implies value after held⟩

theorem Yields.congr {action other : FollowM α} {post : α → Store → Prop} (yields : Yields action store post)
    (same : other.run.run store = action.run.run store) : Yields other store post := by
  unfold Yields
  rw [same]
  exact yields

theorem Yields.ends {action : FollowM α} {post : α → Store → Prop} (yields : Yields action store post) :
    action.Ends store :=
  let ⟨value, after, ran, _⟩ := yields
  ⟨value, after, ran⟩

theorem yields_newMap {record : Record} {post : Value → Store → Prop}
    (satisfied : post (.map (store.newMap record).1) (store.newMap record).2) :
    Yields (StoreM.newMap record) store post :=
  ⟨_, _, rfl, store.addsMaps_newMap record, satisfied⟩

section Entries

variable {f : String → FollowM Value} {post : String → Value → Store → Prop} {keys : List String}
  (stays : ∀ key value before last, Store.AddsMaps before last → post key value before → post key value last)

include stays

/-- Values for keys, one after the other. -/
theorem yields_mapM
    (each : ∀ key ∈ keys, ∀ after, store.AddsMaps after → Yields (f key) after (post key)) :
    Yields (keys.mapM fun key => do return (key, ← f key)) store fun entries last =>
      entries.map Prod.fst = keys ∧ ∀ entry ∈ entries, post entry.1 entry.2 last := by
  induction keys generalizing store with
  | nil => exact yields_pure ⟨rfl, fun _ member => nomatch member⟩
  | cons key rest inductionHypothesis =>
      obtain ⟨first, others⟩ := List.forall_mem_cons.mp each
      rw [List.mapM_cons, bind_assoc]
      refine (first store (.refl store)).bind fun value after adds here => ?_
      rw [pure_bind]
      refine (inductionHypothesis fun key member last later =>
        others key member last (adds.trans later)).bind fun entries last later ⟨sameKeys, held⟩ => ?_
      refine yields_pure ⟨by rw [List.map_cons, sameKeys], List.forall_mem_cons.mpr ⟨?_, held⟩⟩
      exact stays key value after last later here

theorem yields_tabulate (distinct : keys.Nodup)
    (each : ∀ key ∈ keys, ∀ after, store.AddsMaps after → Yields (f key) after (post key)) :
    Yields (tabulate keys f) store
      fun value last => ∃ ref, value = .map ref ∧ ref.index < last.maps.size ∧
        (last.record ref).keys = keys ∧ ∀ key ∈ keys, post key ((last.record ref).valueAt key) last := by
  refine (yields_mapM stays each).bind fun entries after adds ⟨sameKeys, held⟩ => yields_newMap ?_
  have entries_eq : (Record.ofEntries entries).entries = entries :=
    Record.entries_ofEntries (sameKeys ▸ distinct)
  have keys_eq : (Record.ofEntries entries).keys = keys := by
    rw [← Record.keys_entries, entries_eq, sameKeys]
  refine ⟨_, rfl, ?_, ?_, fun key member => ?_⟩
  · simp [Store.newMap]
  · rw [Store.record_newMap, keys_eq]
  · rw [Store.record_newMap]
    have known : (key, (Record.ofEntries entries).valueAt key) ∈ entries := by
      rw [← keys_eq] at member
      have listed := List.mem_map_of_mem
        (f := fun key => (key, (Record.ofEntries entries).valueAt key)) member
      rwa [← Record.entries, entries_eq] at listed
    exact stays key _ after _ (after.addsMaps_newMap _) (held _ known)

end Entries

end FollowM

/-! ## Entries that meet -/

/-- The entries of two values that are followed side by side, and their keys. -/
structure Meeting where
  keys : List String
  left : String → Value
  right : String → Value

namespace Store

/-- Two maps meet where they share a key, and a map meets a scalar everywhere. -/
def meeting? (store : Store) (x y : Value) : Option Meeting :=
  match x, y with
  | .map a, .map b =>
      some ⟨(store.record a).keys.filter (store.record b).contains, (store.record a).valueAt,
        (store.record b).valueAt⟩
  | .map a, y =>
      if y.isScalar then some ⟨(store.record a).keys, (store.record a).valueAt, fun _ => y⟩ else none
  | x, .map b =>
      if x.isScalar then some ⟨(store.record b).keys, fun _ => x, (store.record b).valueAt⟩ else none
  | _, _ => none

variable {store after : Store} {x y : Value} {meeting : Meeting}

/-- The three ways in which entries meet. -/
theorem meeting_cases (meets : store.meeting? x y = some meeting) :
    (∃ a b, x = .map a ∧ y = .map b ∧ meeting =
      ⟨(store.record a).keys.filter (store.record b).contains, (store.record a).valueAt,
        (store.record b).valueAt⟩) ∨
      (∃ a, x = .map a ∧ y.isScalar = true ∧ meeting =
        ⟨(store.record a).keys, (store.record a).valueAt, fun _ => y⟩) ∨
      ∃ b, x.isScalar = true ∧ y = .map b ∧ meeting =
        ⟨(store.record b).keys, fun _ => x, (store.record b).valueAt⟩ := by
  unfold meeting? at meets
  split at meets
  · next a b => exact .inl ⟨a, b, rfl, rfl, (Option.some.inj meets).symm⟩
  · next y a _ =>
    split at meets
    · next scalar => exact .inr (.inl ⟨a, rfl, scalar, (Option.some.inj meets).symm⟩)
    · cases meets
  · next x b _ =>
    split at meets
    · next scalar => exact .inr (.inr ⟨b, scalar, rfl, (Option.some.inj meets).symm⟩)
    · cases meets
  · cases meets

theorem nodup_keys_of_meeting (meets : store.meeting? x y = some meeting) : meeting.keys.Nodup := by
  rcases meeting_cases meets with ⟨a, b, -, -, rfl⟩ | ⟨a, -, -, rfl⟩ | ⟨b, -, -, rfl⟩
  · exact (store.record a).nodup_keys.filter _
  · exact (store.record a).nodup_keys
  · exact (store.record b).nodup_keys

theorem scalar_cases (scalar : x.isScalar = true) : (∃ number, x = .number number) ∨
    (∃ truth, x = .boolean truth) ∨ ∃ text, x = .string text := by
  cases x with
  | number number => exact .inl ⟨number, rfl⟩
  | boolean truth => exact .inr (.inl ⟨truth, rfl⟩)
  | string text => exact .inr (.inr ⟨text, rfl⟩)
  | _ => cases scalar

theorem meeting_map_scalar (store : Store) (a : MapRef) (scalar : y.isScalar = true) :
    store.meeting? (.map a) y =
      some ⟨(store.record a).keys, (store.record a).valueAt, fun _ => y⟩ := by
  rcases scalar_cases scalar with ⟨_, rfl⟩ | ⟨_, rfl⟩ | ⟨_, rfl⟩ <;> rfl

theorem meeting_scalar_map (store : Store) (b : MapRef) (scalar : x.isScalar = true) :
    store.meeting? x (.map b) =
      some ⟨(store.record b).keys, fun _ => x, (store.record b).valueAt⟩ := by
  rcases scalar_cases scalar with ⟨_, rfl⟩ | ⟨_, rfl⟩ | ⟨_, rfl⟩ <;> rfl

/-- In the other order the same entries meet. -/
theorem meeting_swap (meets : store.meeting? x y = some meeting) : ∃ swapped : Meeting,
    store.meeting? y x = some swapped ∧ meeting.keys.Perm swapped.keys ∧
      swapped.left = meeting.right ∧ swapped.right = meeting.left := by
  rcases meeting_cases meets with ⟨a, b, rfl, rfl, rfl⟩ | ⟨a, rfl, scalar, rfl⟩ | ⟨b, scalar, rfl, rfl⟩
  · refine ⟨_, rfl, ?_, rfl, rfl⟩
    rw [List.perm_ext_iff_of_nodup ((store.record a).nodup_keys.filter _)
      ((store.record b).nodup_keys.filter _)]
    intro key
    simp only [List.mem_filter, Record.contains_iff, and_comm]
  · exact ⟨_, store.meeting_scalar_map a scalar, .refl _, rfl, rfl⟩
  · exact ⟨_, store.meeting_map_scalar b scalar, .refl _, rfl, rfl⟩

/-- In a larger store the same entries meet. -/
theorem meeting_of_addsMaps (xStored : ∀ ref, x = .map ref → ref.index < store.maps.size)
    (yStored : ∀ ref, y = .map ref → ref.index < store.maps.size) (adds : store.AddsMaps after) :
    after.meeting? x y = store.meeting? x y := by
  have leftSame (ref : MapRef) (same : x = .map ref) : after.record ref = store.record ref :=
    adds.record_eq (xStored ref same)
  have rightSame (ref : MapRef) (same : y = .map ref) : after.record ref = store.record ref :=
    adds.record_eq (yStored ref same)
  cases x <;> cases y <;> simp_all [meeting?]

end Store

/-! ## An operator and its entries -/

namespace Cascade

variable {store : Store} {x y : Value} {meeting : Meeting} (op : Cascade)

theorem onMatrices?_of_meeting (meets : store.meeting? x y = some meeting) : op.onMatrices? x y = none := by
  rcases Store.meeting_cases meets with ⟨a, b, rfl, rfl, -⟩ | ⟨a, rfl, scalar, -⟩ | ⟨b, scalar, rfl, -⟩
  · rfl
  · cases y <;> rfl
  · cases x <;> rfl

/-- The entries of a map under the keys of another one, with the values of both. -/
theorem filterMapM_entries (left right : Record) (next : Value → Value → FollowM Value) :
    (left.entries.filterMapM fun (key, value) => do
        match right.get? key with
        | some other => return some (key, ← next value other)
        | none => return none) =
      (left.keys.filter right.contains).mapM fun key => do
        return (key, ← next (left.valueAt key) (right.valueAt key)) := by
  rw [Record.entries]
  induction left.keys with
  | nil => rfl
  | cons key rest inductionHypothesis =>
      rw [List.map_cons, List.filterMapM_cons, inductionHypothesis]
      cases shared : right.contains key with
      | true =>
          have found := Record.get?_eq_some (Record.contains_iff.mp shared)
          rw [List.filter_cons_of_pos shared, List.mapM_cons]
          simp [found]
      | false =>
          have none : right.get? key = none := by simpa [Record.contains_eq_isSome] using shared
          rw [List.filter_cons_of_neg (by simp [shared])]
          simp [none]

theorem mapM_entries (record : Record) (f : Value → FollowM Value) :
    (record.entries.mapM fun (key, value) => do return (key, ← f value)) =
      record.keys.mapM fun key => do return (key, ← f (record.valueAt key)) := by
  rw [Record.entries, List.mapM_map]
  rfl

/-- An operator goes through the entries that meet. -/
theorem run_onMaps (next : Value → Value → FollowM Value) (meets : store.meeting? x y = some meeting) :
    (op.onMaps next x y).run.run store = (FollowM.tabulate meeting.keys fun key =>
      next (meeting.left key) (meeting.right key)).run.run store := by
  unfold FollowM.tabulate
  rcases Store.meeting_cases meets with ⟨a, b, rfl, rfl, rfl⟩ | ⟨a, rfl, scalar, rfl⟩ | ⟨b, scalar, rfl, rfl⟩
  · dsimp only
    rw [← filterMapM_entries]
    rfl
  · dsimp only
    rw [← mapM_entries _ (next · y)]
    rcases Store.scalar_cases scalar with ⟨_, rfl⟩ | ⟨_, rfl⟩ | ⟨_, rfl⟩ <;> rfl
  · dsimp only
    rw [← mapM_entries _ (next x)]
    rcases Store.scalar_cases scalar with ⟨_, rfl⟩ | ⟨_, rfl⟩ | ⟨_, rfl⟩ <;> rfl

/-- A lifted function goes through all entries of a map. -/
theorem run_liftTo_map (f : Value → Value) (depth : Nat) (ref : MapRef) (store : Store) :
    (liftTo f (depth + 1) (.map ref)).run.run store =
      (FollowM.tabulate (store.record ref).keys fun key =>
        liftTo f depth ((store.record ref).valueAt key)).run.run store := by
  rw [FollowM.tabulate, ← mapM_entries _ (liftTo f depth)]
  rfl

theorem onMaps_of_apart (next : Value → Value → FollowM Value) (apart : store.meeting? x y = none) :
    op.onMaps next x y = pure (op.onScalars x y) := by
  cases x <;> cases y <;> first | rfl | cases apart

theorem run_apply (store : Store) (x y : Value) :
    (op.apply x y).run.run store = (op.applyTo store.pairing x y).run.run store :=
  FollowM.run_get_bind _ store

/-- Where no entries meet, an operator does not look into maps. -/
theorem applyTo_of_apart (depth : Nat) (apart : store.meeting? x y = none) :
    op.applyTo (depth + 1) x y = pure ((op.onMatrices? x y).getD (op.onScalars x y)) := by
  rw [applyTo]
  cases op.onMatrices? x y with
  | some result => rfl
  | none => exact op.onMaps_of_apart _ apart

end Cascade

/-! ## Where following has an end -/

namespace Store

/-- Following two values side by side ends within a depth. -/
def EndsIn (store : Store) : Nat → Value → Value → Prop
  | 0, _, _ => False
  | depth + 1, x, y => ∀ meeting, store.meeting? x y = some meeting → ∀ key ∈ meeting.keys,
      store.EndsIn depth (meeting.left key) (meeting.right key)

theorem endsIn_of_meeting {store : Store} {x y : Value} {meeting : Meeting} {depth : Nat}
    (meets : store.meeting? x y = some meeting) : store.EndsIn (depth + 1) x y ↔
      ∀ key ∈ meeting.keys, store.EndsIn depth (meeting.left key) (meeting.right key) := by
  simp [EndsIn, meets]

/-- The maps among some values are stored and hold only values that are among them as well. -/
structure IsClosed (store : Store) (among : Value → Prop) : Prop where
  stored : ∀ ref, among (.map ref) → ref.index < store.maps.size
  entries : ∀ ref, among (.map ref) → ∀ value ∈ (store.record ref).values, among value

variable {store after : Store} {among : Value → Prop} {x y : Value} {meeting : Meeting} {depth : Nat}

theorem isClosed_isFinite (store : Store) : store.IsClosed store.IsFinite where
  stored := by
    rintro ref ⟨_ | depth, fits⟩
    · exact fits.elim
    · exact fits.1
  entries := by
    rintro ref ⟨_ | depth, fits⟩ value member
    · exact fits.elim
    · exact ⟨depth, fits.2 value member⟩

theorem IsClosed.valueAt (closed : store.IsClosed among) {ref : MapRef} (member : among (.map ref))
    {key : String} (known : key ∈ (store.record ref).keys) : among ((store.record ref).valueAt key) :=
  closed.entries ref member _ (List.mem_map_of_mem known)

theorem IsClosed.of_meeting (closed : store.IsClosed among) (xAmong : among x) (yAmong : among y)
    (meets : store.meeting? x y = some meeting) :
    ∀ key ∈ meeting.keys, among (meeting.left key) ∧ among (meeting.right key) := by
  intro key member
  rcases meeting_cases meets with ⟨a, b, rfl, rfl, rfl⟩ | ⟨a, rfl, scalar, rfl⟩ | ⟨b, scalar, rfl, rfl⟩
  · obtain ⟨here, there⟩ := List.mem_filter.mp member
    exact ⟨closed.valueAt xAmong here, closed.valueAt yAmong (Record.contains_iff.mp there)⟩
  · exact ⟨closed.valueAt xAmong member, yAmong⟩
  · exact ⟨xAmong, closed.valueAt yAmong member⟩

theorem IsClosed.meeting_of_addsMaps (closed : store.IsClosed among) (xAmong : among x) (yAmong : among y)
    (adds : store.AddsMaps after) : after.meeting? x y = store.meeting? x y := by
  refine Store.meeting_of_addsMaps ?_ ?_ adds
  · rintro ref rfl
    exact closed.stored ref xAmong
  · rintro ref rfl
    exact closed.stored ref yAmong

end Store

open FollowM

section Ending

variable {store after : Store} {among : Value → Prop} {x y : Value}

/-- Operators leave the maps that are in the store as they are. -/
theorem Cascade.adds_applyTo (op : Cascade) (depth : Nat) (x y : Value) : (op.applyTo depth x y).Adds := by
  induction depth generalizing x y with
  | zero => exact adds_failure
  | succ depth inductionHypothesis =>
      intro store
      cases met : store.meeting? x y with
      | none =>
          rw [op.applyTo_of_apart depth met]
          exact .refl store
      | some meeting =>
          rw [applyTo, op.onMatrices?_of_meeting met]
          dsimp only
          rw [op.run_onMaps _ met]
          exact adds_tabulate (fun key => inductionHypothesis _ _) store

theorem Cascade.adds_apply (op : Cascade) (x y : Value) : (op.apply x y).Adds := by
  intro store
  rw [op.run_apply]
  exact op.adds_applyTo store.pairing x y store

theorem adds_liftTo (f : Value → Value) (depth : Nat) (x : Value) : (liftTo f depth x).Adds := by
  induction depth generalizing x with
  | zero =>
      cases x with
      | map ref => exact adds_failure
      | _ => exact adds_pure _
  | succ depth inductionHypothesis =>
      cases x with
      | map ref =>
          intro store
          rw [Cascade.run_liftTo_map]
          exact adds_tabulate (fun key => inductionHypothesis _) store
      | _ => exact adds_pure _

/-- An operator that follows maps to a depth has an end just if following has one within it. -/
theorem Cascade.ends_applyTo_iff (op : Cascade) (closed : store.IsClosed among) (depth : Nat)
    (xAmong : among x) (yAmong : among y) (adds : store.AddsMaps after) :
    (op.applyTo depth x y).Ends after ↔ store.EndsIn depth x y := by
  induction depth generalizing x y after with
  | zero => exact iff_of_false (fun ⟨_, _, ran⟩ => nomatch ran) id
  | succ depth inductionHypothesis =>
      cases met : store.meeting? x y with
      | none =>
          rw [op.applyTo_of_apart depth met]
          refine iff_of_true ⟨_, after, rfl⟩ fun meeting meets => ?_
          cases met.symm.trans meets
      | some meeting =>
          have met' := (closed.meeting_of_addsMaps xAmong yAmong adds).trans met
          have same := op.run_onMaps (op.applyTo depth) met'
          rw [applyTo, op.onMatrices?_of_meeting met]
          refine (ends_of_run_iff same).trans ?_
          rw [Store.endsIn_of_meeting met]
          refine ends_tabulate_iff (fun key => op.adds_applyTo depth _ _) fun key member last more => ?_
          obtain ⟨left, right⟩ := closed.of_meeting xAmong yAmong met key member
          exact inductionHypothesis left right (adds.trans more)

/-- A function that follows maps to a depth has an end just if the value fits in it. -/
theorem ends_liftTo_iff (f : Value → Value) (closed : store.IsClosed among) (depth : Nat) (xAmong : among x)
    (adds : store.AddsMaps after) : (liftTo f depth x).Ends after ↔ store.FitsIn depth x := by
  induction depth generalizing x after with
  | zero =>
      cases x with
      | map ref => exact iff_of_false (fun ⟨_, _, ran⟩ => nomatch ran) id
      | _ => exact iff_of_true ⟨_, after, rfl⟩ trivial
  | succ depth inductionHypothesis =>
      cases x with
      | map ref =>
          have stored := closed.stored ref xAmong
          refine (ends_of_run_iff (Cascade.run_liftTo_map f depth ref after)).trans ?_
          rw [adds.record_eq stored, Store.FitsIn, and_iff_right stored, Record.values, List.forall_mem_map]
          refine ends_tabulate_iff (fun key => adds_liftTo f depth _) fun key member last more => ?_
          exact inductionHypothesis (closed.valueAt xAmong member) (adds.trans more)
      | _ => exact iff_of_true ⟨_, after, rfl⟩ trivial

end Ending

/-! ## Enough depth -/

namespace Store

variable {store : Store} {among : Value → Prop} {x y : Value} {depth : Nat}

theorem EndsIn.mono {small large : Nat} (le : small ≤ large) (ends : store.EndsIn small x y) :
    store.EndsIn large x y := by
  induction small generalizing large x y with
  | zero => exact ends.elim
  | succ depth inductionHypothesis =>
      obtain ⟨more, rfl⟩ := Nat.exists_eq_add_of_le le
      rw [Nat.add_right_comm]
      exact fun meeting meets key member => inductionHypothesis (by omega) (ends meeting meets key member)

theorem fitsIn_of_scalar (scalar : x.isScalar = true) : store.FitsIn depth x := by
  rcases scalar_cases scalar with ⟨_, rfl⟩ | ⟨_, rfl⟩ | ⟨_, rfl⟩ <;> cases depth <;> trivial

/-- Values that fit in a depth are followed side by side to one level more at most. -/
theorem FitsIn.endsIn (fits : store.FitsIn depth x) (fits' : store.FitsIn depth y) :
    store.EndsIn (depth + 1) x y := by
  induction depth generalizing x y with
  | zero =>
      intro meeting meets
      rcases meeting_cases meets with ⟨a, b, rfl, rfl, -⟩ | ⟨a, rfl, -⟩ | ⟨b, -, rfl, -⟩
      · exact fits.elim
      · exact fits.elim
      · exact fits'.elim
  | succ depth inductionHypothesis =>
      intro meeting meets key member
      rcases meeting_cases meets with ⟨a, b, rfl, rfl, rfl⟩ | ⟨a, rfl, scalar, rfl⟩ | ⟨b, scalar, rfl, rfl⟩
      · obtain ⟨here, there⟩ := List.mem_filter.mp member
        exact inductionHypothesis (fits.2 _ (List.mem_map_of_mem here))
          (fits'.2 _ (List.mem_map_of_mem (Record.contains_iff.mp there)))
      · exact inductionHypothesis (fits.2 _ (List.mem_map_of_mem member)) (fitsIn_of_scalar scalar)
      · exact inductionHypothesis (fitsIn_of_scalar scalar) (fits'.2 _ (List.mem_map_of_mem member))

theorem EndsIn.symm (ends : store.EndsIn depth x y) : store.EndsIn depth y x := by
  induction depth generalizing x y with
  | zero => exact ends.elim
  | succ depth inductionHypothesis =>
      intro meeting meets key member
      obtain ⟨swapped, swap, sameKeys, left, right⟩ := meeting_swap meets
      have inner := ends swapped swap key (sameKeys.mem_iff.mp member)
      rw [left, right] at inner
      exact inductionHypothesis inner

/-- A value that is followed next to a scalar to its end fits in the depth. -/
theorem EndsIn.fitsIn (closed : store.IsClosed among) (xAmong : among x) (scalar : y.isScalar = true)
    (ends : store.EndsIn depth x y) : store.FitsIn depth x := by
  induction depth generalizing x with
  | zero => exact ends.elim
  | succ depth inductionHypothesis =>
      cases x with
      | map ref =>
          refine ⟨closed.stored ref xAmong, List.forall_mem_map.mpr fun key known => ?_⟩
          exact inductionHypothesis (closed.valueAt xAmong known)
            (ends _ (store.meeting_map_scalar ref scalar) key known)
      | _ => trivial

/-- Following a value next to a scalar ends within the number of maps, if it ends. -/
theorem EndsIn.nesting (closed : store.IsClosed among) (xAmong : among x) (scalar : y.isScalar = true)
    (ends : store.EndsIn depth x y) : store.EndsIn store.nesting x y :=
  (ends.fitsIn closed xAmong scalar).size.endsIn (fitsIn_of_scalar scalar)

theorem length_le_of_stored_pairs {pairs : List (MapRef × MapRef)} (distinct : pairs.Nodup)
    (stored : ∀ pair ∈ pairs, pair.1.index < store.maps.size ∧ pair.2.index < store.maps.size) :
    pairs.length ≤ store.maps.size * store.maps.size := by
  have injective : Function.Injective fun pair : MapRef × MapRef => (pair.1.index, pair.2.index) := by
    rintro ⟨⟨a⟩, ⟨b⟩⟩ ⟨⟨c⟩, ⟨d⟩⟩ same
    obtain ⟨rfl, rfl⟩ := Prod.mk.inj same
    rfl
  have within : pairs.map (fun pair => (pair.1.index, pair.2.index)) ⊆
      List.range store.maps.size ×ˢ List.range store.maps.size := by
    intro indices member
    obtain ⟨pair, known, rfl⟩ := List.mem_map.mp member
    obtain ⟨left, right⟩ := stored pair known
    exact List.mem_product.mpr ⟨List.mem_range.mpr left, List.mem_range.mpr right⟩
  have fewer := (List.subperm_of_subset (distinct.map injective) within).length_le
  rwa [List.length_map, List.length_product, List.length_range] at fewer

/-- Two values that are followed side by side to an end are so within a depth that leaves room for each pair
of maps once.  The pairs above are all different, because they do not end within the depth that is left. -/
theorem EndsIn.of_visited (closed : store.IsClosed among) (xAmong : among x) (yAmong : among y)
    (ends : store.EndsIn depth x y) {visited : List (MapRef × MapRef)} (distinct : visited.Nodup)
    (stored : ∀ pair ∈ visited, pair.1.index < store.maps.size ∧ pair.2.index < store.maps.size)
    (above : ∀ pair ∈ visited, ¬store.EndsIn depth (.map pair.1) (.map pair.2)) :
    store.EndsIn (store.maps.size * store.maps.size - visited.length + store.nesting) x y := by
  induction depth generalizing x y visited with
  | zero => exact ends.elim
  | succ depth inductionHypothesis =>
      have stillAbove : ∀ pair ∈ visited, ¬store.EndsIn depth (.map pair.1) (.map pair.2) :=
        fun pair member lower => above pair member (lower.mono (Nat.le_succ depth))
      by_cases lower : store.EndsIn depth x y
      · exact inductionHypothesis xAmong yAmong lower distinct stored stillAbove
      cases met : store.meeting? x y with
      | none =>
          intro meeting meets
          cases met.symm.trans meets
      | some meeting =>
          rcases meeting_cases met with ⟨a, b, rfl, rfl, -⟩ | ⟨a, rfl, scalar, -⟩ | ⟨b, scalar, rfl, -⟩
          · have new : (a, b) ∉ visited := fun member => above (a, b) member ends
            have moreDistinct : ((a, b) :: visited).Nodup := List.nodup_cons.mpr ⟨new, distinct⟩
            have moreStored : ∀ pair ∈ (a, b) :: visited,
                pair.1.index < store.maps.size ∧ pair.2.index < store.maps.size :=
              List.forall_mem_cons.mpr ⟨⟨closed.stored a xAmong, closed.stored b yAmong⟩, stored⟩
            have moreAbove : ∀ pair ∈ (a, b) :: visited, ¬store.EndsIn depth (.map pair.1) (.map pair.2) :=
              List.forall_mem_cons.mpr ⟨lower, stillAbove⟩
            have room : store.maps.size * store.maps.size - visited.length + store.nesting =
                store.maps.size * store.maps.size - ((a, b) :: visited).length + store.nesting + 1 := by
              have fewer := length_le_of_stored_pairs moreDistinct moreStored
              rw [List.length_cons] at fewer ⊢
              omega
            rw [room]
            intro meeting meets key member
            obtain ⟨left, right⟩ := closed.of_meeting xAmong yAmong meets key member
            have inside := ends meeting meets key member
            exact inductionHypothesis left right inside moreDistinct moreStored moreAbove
          · exact (ends.nesting closed xAmong scalar).mono (by omega)
          · exact (ends.symm.nesting closed yAmong scalar).symm.mono (by omega)

theorem EndsIn.pairing (closed : store.IsClosed among) (xAmong : among x) (yAmong : among y)
    (ends : store.EndsIn depth x y) : store.EndsIn store.pairing x y := by
  refine (ends.of_visited closed xAmong yAmong List.nodup_nil (by simp) (by simp)).mono ?_
  rw [Store.pairing, Store.nesting, List.length_nil, Nat.sub_zero, Nat.succ_mul]
  exact Nat.add_le_add_right (Nat.mul_le_mul_left _ (Nat.le_succ _)) _

end Store

section Depth

variable {store : Store} {among : Value → Prop} {x y : Value}

theorem run_lift (f : Value → Value) (store : Store) (x : Value) :
    (lift f x).run.run store = (liftTo f store.nesting x).run.run store :=
  FollowM.run_get_bind _ store

/-- An operator has an end just where following the two values has one. -/
theorem Cascade.ends_apply_iff (op : Cascade) (closed : store.IsClosed among) (xAmong : among x)
    (yAmong : among y) : (op.apply x y).Ends store ↔ ∃ depth, store.EndsIn depth x y := by
  rw [ends_of_run_iff (op.run_apply store x y),
    op.ends_applyTo_iff closed store.pairing xAmong yAmong (.refl store)]
  exact ⟨fun ends => ⟨_, ends⟩, fun ⟨_, ends⟩ => ends.pairing closed xAmong yAmong⟩

/-- An operator has no end only where no depth to which it could follow maps is enough. -/
theorem Cascade.ends_apply_iff_applyTo (op : Cascade) (closed : store.IsClosed among) (xAmong : among x)
    (yAmong : among y) : (op.apply x y).Ends store ↔ ∃ depth, (op.applyTo depth x y).Ends store := by
  rw [op.ends_apply_iff closed xAmong yAmong]
  exact exists_congr fun depth => (op.ends_applyTo_iff closed depth xAmong yAmong (.refl store)).symm

/-- An operator has an end on finite values. -/
theorem Cascade.ends_apply (op : Cascade) (finite : store.IsFinite x) (finite' : store.IsFinite y) :
    (op.apply x y).Ends store := by
  refine (op.ends_apply_iff store.isClosed_isFinite finite finite').mpr ?_
  obtain ⟨depth, fits⟩ := finite
  obtain ⟨other, fits'⟩ := finite'
  exact ⟨_, (fits.mono (Nat.le_max_left depth other)).endsIn (fits'.mono (Nat.le_max_right depth other))⟩

/-- A lifted function has an end just on finite values. -/
theorem ends_lift_iff (f : Value → Value) (closed : store.IsClosed among) (xAmong : among x) :
    (lift f x).Ends store ↔ store.IsFinite x := by
  rw [ends_of_run_iff (run_lift f store x), ends_liftTo_iff f closed store.nesting xAmong (.refl store)]
  exact ⟨fun fits => ⟨_, fits⟩, fun ⟨_, fits⟩ => fits.nesting⟩

end Depth

/-! ## Finite results -/

theorem Matrix.orNull_ne_map (found : Option Matrix) (ref : MapRef) : orNull found ≠ .map ref := by
  cases found <;> nofun

/-- What an operator gives without following maps is not a map. -/
def Cascade.IsFlat (op : Cascade) : Prop :=
  ∀ x y ref, op.onScalars x y ≠ .map ref

namespace Cascade

variable {op : Cascade} {store after : Store} {among : Value → Prop} {x y : Value}

theorem onMatrices?_ne_map (x y : Value) (ref : MapRef) : op.onMatrices? x y ≠ some (.map ref) := by
  unfold Cascade.onMatrices?
  split
  · split <;> simp [Matrix.orNull_ne_map]
  · split <;> simp [Matrix.orNull_ne_map]
  · split <;> simp [Matrix.orNull_ne_map]
  · nofun

theorem IsFlat.of_apart (flat : op.IsFlat) (x y : Value) (ref : MapRef) :
    (op.onMatrices? x y).getD (op.onScalars x y) ≠ .map ref := by
  rcases found : op.onMatrices? x y with _ | result
  · exact flat x y ref
  · rintro rfl
    exact onMatrices?_ne_map x y ref found

/-- Following finite values, such an operator gives a finite value. -/
theorem IsFlat.yields_applyTo (flat : op.IsFlat) {depth : Nat} (xFinite : store.IsFinite x)
    (yFinite : store.IsFinite y) (ends : store.EndsIn depth x y) (adds : store.AddsMaps after) :
    Yields (op.applyTo depth x y) after fun result last => last.IsFinite result := by
  induction depth generalizing x y after with
  | zero => exact ends.elim
  | succ depth inductionHypothesis =>
      have closed := store.isClosed_isFinite
      cases met : store.meeting? x y with
      | none =>
          rw [op.applyTo_of_apart depth met]
          exact yields_pure (Store.isFinite_of_flat (flat.of_apart x y))
      | some meeting =>
          have stays (_ : String) (value : Value) (before last : Store) (more : before.AddsMaps last)
              (finite : before.IsFinite value) : last.IsFinite value :=
            finite.imp fun _ fits => fits.of_addsMaps more
          have each (key : String) (member : key ∈ meeting.keys) (last : Store) (more : after.AddsMaps last) :
              Yields (op.applyTo depth (meeting.left key) (meeting.right key)) last
                fun result last => last.IsFinite result := by
            obtain ⟨left, right⟩ := closed.of_meeting xFinite yFinite met key member
            exact inductionHypothesis left right (ends meeting met key member) (adds.trans more)
          have entries := yields_tabulate stays (Store.nodup_keys_of_meeting met) each
          rw [applyTo, op.onMatrices?_of_meeting met]
          have met' := (closed.meeting_of_addsMaps xFinite yFinite adds).trans met
          have same := op.run_onMaps (op.applyTo depth) met'
          refine (entries.imp ?_).congr same
          rintro result last ⟨ref, rfl, stored, sameKeys, finite⟩
          rw [← sameKeys] at finite
          obtain ⟨inner, fits⟩ := Store.exists_forall_fitsIn (List.forall_mem_map.mpr finite)
          exact ⟨inner + 1, stored, fits⟩

theorem IsFlat.yields_apply (flat : op.IsFlat) (xFinite : store.IsFinite x) (yFinite : store.IsFinite y) :
    Yields (op.apply x y) store fun result last => last.IsFinite result := by
  obtain ⟨depth, ends⟩ :=
    (op.ends_apply_iff store.isClosed_isFinite xFinite yFinite).mp (op.ends_apply xFinite yFinite)
  have enough := ends.pairing store.isClosed_isFinite xFinite yFinite
  exact (flat.yields_applyTo xFinite yFinite enough (.refl store)).congr (op.run_apply store x y)

end Cascade

namespace Operator

variable {store : Store} {x y : Value}

theorem isFlat_equalEach : equalEach.IsFlat := by
  intro x y ref
  rw [Cascade.onScalars]
  rcases others : equalEach.onOthers x y with _ | result
  · dsimp only [Cascade.coerced, equalEach]
    split
    · nofun
    · split
      · next complex _ _ =>
        cases complex
        nofun
      · nofun
  · rintro rfl
    change equalOthers x y = _ at others
    unfold equalOthers at others
    split at others <;> cases others

theorem yields_equal_finite (xFinite : store.IsFinite x) (yFinite : store.IsFinite y) :
    Yields (equal x y) store fun result last => last.IsFinite result := by
  refine (isFlat_equalEach.yields_apply xFinite yFinite).bind fun found after _ finite => ?_
  cases found with
  | null => exact yields_pure ⟨0, trivial⟩
  | _ => exact yields_pure finite

theorem ends_notEqual (xFinite : store.IsFinite x) (yFinite : store.IsFinite y) :
    (notEqual x y).Ends store := by
  obtain ⟨found, middle, ran, -, finite⟩ := yields_equal_finite xFinite yFinite
  obtain ⟨result, after, negated⟩ := (ends_lift_iff notScalar middle.isClosed_isFinite finite).mpr finite
  exact ⟨result, after, run_bind_eq_some.mpr ⟨found, middle, ran, negated⟩⟩

end Operator

end Reckon
