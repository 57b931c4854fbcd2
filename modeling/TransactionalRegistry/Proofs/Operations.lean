import TransactionalRegistry.Proofs.Work

/-!
# The operations one by one

Every operation on a key ends alike inside a transaction and outside. Most of them open a key, work
with it and close it; what they do in between is reading or changing through the pair of handles
that were opened side by side.

## Theorems

* `Surroundings.agrees_with_key`: Operations that work with an open key.
* `Surroundings.transparent_create`, `Surroundings.transparent_delete`,
  `Surroundings.transparent_rename` and the like: Keys.
* `Surroundings.agrees_info`: What can be asked about a key, except when it was last written to.
* `Surroundings.transparent_getValue`, `Surroundings.transparent_setValue` and the like: Values.
-/

namespace TransactionalRegistry

/-! ## What is read does not depend on times -/

theorem Node.info_timeless (n : Node) : n.timeless.info = { n.info with lastWrite := 0 } := by
  unfold Node.info
  rw [Node.timeless_subKeys, Node.timeless_values, Node.timeless_lastWrite, List.length_map,
    List.map_map]
  -- Only the names of the sub-keys are measured, and those carry no times.
  have hnames : (fun entry : String × Node => Utf16.length entry.2.name) ∘
      Prod.map id Node.timeless = fun entry => Utf16.length entry.2.name := by
    funext entry
    simp only [Function.comp_apply, Prod.map_snd, Node.timeless_name]
  rw [hnames]

namespace Store

/-- Up to times, the same can be said about keys that are the same up to times. -/
theorem sameRead_info :
    SameRead
      (fun x y : KeyInfo => ({ x with lastWrite := 0 } : KeyInfo) = { y with lastWrite := 0 })
      (fun n => .ok n.info) := by
  intro n₁ n₂ hsame
  refine Or.inl ⟨n₁.info, n₂.info, rfl, rfl, ?_⟩
  change ({ n₁.info with lastWrite := 0 } : KeyInfo) = { n₂.info with lastWrite := 0 }
  rw [← Node.info_timeless, hsame, Node.info_timeless]

theorem sameRead_subKeyName (index : UInt32) :
    SameRead Eq (fun n =>
      match n.subKeys[index.toNat]? with
      | some entry => Except.ok entry.2.name
      | none => .error NativeError.noMoreItems) := by
  refine sameRead_of_timeless (fun n => ?_)
  rw [Node.timeless_subKeys, List.getElem?_map]
  cases n.subKeys[index.toNat]? with
  | none => rfl
  | some entry =>
    simp only [Option.map_some, Prod.map_snd, Node.timeless_name]

theorem sameRead_valueAt (index : UInt32) :
    SameRead Eq (fun n =>
      match n.values[index.toNat]? with
      | some entry => Except.ok (entry.2.name, entry.2.data)
      | none => .error NativeError.noMoreItems) := by
  refine sameRead_of_timeless (fun n => ?_)
  rw [Node.timeless_values]

theorem sameRead_value (name : String) :
    SameRead Eq (fun n =>
      match n.value? name with
      | some value => Except.ok value.data
      | none => .error NativeError.fileNotFound) := by
  refine sameRead_of_timeless (fun n => ?_)
  rw [Node.value?_timeless]

end Store

namespace Surroundings

open Store

variable {α : Type} {w : Surroundings} {F : Handles → Prop} {access : Access} {a b : KeyHandle}

/-! ## Work with an open key -/

/-- An operation that opens a key, works with it and closes it. -/
theorem agrees_with_key {A : α → α → Prop} (l : Location)
    {f : Route → KeyHandle → Act Store RegistryError α}
    (hf : ∀ a b, Agrees w.Late (w.Work (Handles.Pairs w.handle access a b)) (f ⟨none⟩ a)
      (f ⟨some w.handle⟩ b)
      (fun x y ctx₁ ctx₂ => A x y ∧ w.Work (Handles.Pairs w.handle access a b) ctx₁ ctx₂)
      (w.Work (Handles.Pairs w.handle access a b))) :
    Agrees w.Late (w.Work Handles.Room)
      (do let route ← Route.current
          let key ← Registry.openAt route l access
          Registry.closing key (f route key))
      (do let route ← Route.current
          let key ← Registry.openAt route l access
          Registry.closing key (f route key))
      (fun x y ctx₁ ctx₂ => A x y ∧ w.Work Handles.Any ctx₁ ctx₂) (w.Work Handles.Any) :=
  agrees_route ((agrees_openAt l access).bind (fun a b => agrees_closing (hf a b)))

/-- Reading through a pair of handles, in the transaction that they are bound to or by name. -/
theorem agrees_read {A : α → α → Prop} {right : Access} {read : Node → Except NativeError α}
    {transaction : Option TransactionHandle} (hread : SameRead A read)
    (htransaction : transaction.or (some w.handle) = some w.handle)
    (hlate : Keeps (Store.Late w.deadline) (withNode b right transaction read)) :
    Agrees w.Late (w.Work (Handles.Pairs w.handle access a b))
      (Act.ofWorld (withNode a right none read)) (Act.ofWorld (withNode b right transaction read))
      (fun x y ctx₁ ctx₂ => A x y ∧ w.Work (Handles.Pairs w.handle access a b) ctx₁ ctx₂)
      (w.Work (Handles.Pairs w.handle access a b)) :=
  (agrees_ofWorld (agrees_withNode (fun _ h => h) hread htransaction hlate)).mono_ok
    (fun _ _ _ _ h => ⟨h.1.1, h.1.2, h.2⟩)

/-- Changing a value through a pair of handles. -/
theorem agrees_change (mutation : Location → Mutation)
    (hlate : Keeps (Store.Late w.deadline) (changeValue b (some w.handle) mutation)) :
    Agrees w.Late (w.Work (Handles.Pairs w.handle access a b))
      (Act.ofWorld (changeValue a none mutation))
      (Act.ofWorld (changeValue b (some w.handle) mutation))
      (fun _ _ => w.Work (Handles.Pairs w.handle access a b))
      (w.Work (Handles.Pairs w.handle access a b)) :=
  agrees_ofWorld (agrees_changeValue (fun _ h => h) hlate)

/-! ## Keys -/

theorem transparent_exists (l : Location) : w.Transparent (Registry.exists l) := by
  refine agrees_route ((agrees_openAt l _).attempt_bind ?_ ?_)
  · exact fun a b => agrees_closing (agrees_pure (fun _ _ h => ⟨rfl, h⟩))
  · intro e
    -- A missing key is an answer here; any other error is passed on by both sides.
    cases e with
    | noSuchKey path => exact agrees_return false
    | _ => exact agrees_fail _

theorem transparent_createIfMissing (l : Location) :
    w.Transparent (Registry.createIfMissing l) := by
  unfold Transparent Registry.createIfMissing
  by_cases hroot : l.isRoot = true
  · rw [if_pos hroot]
    exact agrees_return false
  · rw [if_neg hroot]
    have hperform : Agrees (α := KeyHandle × Disposition) (Store.Late w.deadline)
        (Standing w.handle w.deadline Handles.Room)
        (perform (.createKey l.root.handle l.path.text .queryValue none))
        (perform (.createKey l.root.handle l.path.text .queryValue (some w.handle)))
        (fun a b s₁ s₂ => a.2 = b.2 ∧
          Standing w.handle w.deadline (Handles.Pairs w.handle .queryValue a.1 b.1) s₁ s₂)
        (Standing w.handle w.deadline Handles.Room) :=
      agrees_of_standing (perform_keeps_late (.createKey _ _ _ _) rfl)
        (fun hs hroom => (Store.agrees_log _ _).bind_unit (agrees_createKey hroom _ _ _))
    have hcreate : Agrees w.Late (w.Work Handles.Room)
        (Registry.onKey "RegCreateKeyEx" l
          (Route.createKey ⟨none⟩ l.root.handle l.path.text .queryValue))
        (Registry.onKey "RegCreateKeyEx" l
          (Route.createKey ⟨some w.handle⟩ l.root.handle l.path.text .queryValue))
        (fun a b ctx₁ ctx₂ =>
          a.2 = b.2 ∧ w.Work (Handles.Pairs w.handle .queryValue a.1 b.1) ctx₁ ctx₂)
        (w.Work Handles.Any) := by
      refine Agrees.mapError _ ((agrees_log _ _).bind_unit ?_)
      rw [Act.call_eq, Act.call_eq]
      exact (agrees_ofWorld hperform).mono (fun _ _ h => h)
        (fun _ _ _ _ h => ⟨h.1.1, h.1.2, h.2⟩) (fun _ _ h => Work.any h)
    -- The handles differ, but both keys were new or neither was.
    refine agrees_route (hcreate.bind_of (R := fun a b => a.2 = b.2) (fun _ _ _ _ h => h.1)
      (fun _ => rfl) ?_)
    intro a b hdisposition
    rcases a with ⟨a, disposition⟩
    rcases b with ⟨b, disposition'⟩
    have hsame : disposition = disposition' := hdisposition
    subst hsame
    refine (agrees_closing ?_).mono_pre (fun _ _ h => h.2)
    by_cases hnew : disposition = .createdNew
    · simp only [if_pos hnew]
      exact (agrees_log _ _).bind_unit (agrees_pure (fun _ _ h => ⟨rfl, h⟩))
    · simp only [if_neg hnew]
      exact agrees_pure (fun _ _ h => ⟨rfl, h⟩)

/-- After an operation with equal answers, another one goes on. -/
theorem Transparent.bind {β : Type} {act : Act Store RegistryError α}
    {f : α → Act Store RegistryError β} (h : w.Transparent act)
    (hf : ∀ a, Agrees w.Late (w.Work Handles.Any) (f a) (f a)
      (fun x y ctx₁ ctx₂ => x = y ∧ w.Work Handles.Any ctx₁ ctx₂) (w.Work Handles.Any)) :
    w.Transparent (act >>= f) :=
  h.bind_eq hf

theorem transparent_create (l : Location) : w.Transparent (Registry.create l) := by
  refine (transparent_createIfMissing l).bind ?_
  intro created
  cases created with
  | true => exact agrees_return ()
  | false => exact agrees_fail _

/-- A key is deleted or renamed by its path, with nothing opened. -/
theorem agrees_byPath (call : Option TransactionHandle → StoreM Unit)
    (hlate : Keeps (Store.Late w.deadline) (call (some w.handle)))
    (hcall : ∀ hs, Agrees (Store.Late w.deadline) (Mirrors w.handle w.deadline hs) (call none)
      (call (some w.handle)) (fun _ _ => Mirrors w.handle w.deadline hs)
      (Mirrors w.handle w.deadline hs)) :
    Agrees w.Late (w.Work Handles.Room) (Act.ofWorld (call none))
      (Act.ofWorld (call (some w.handle))) (fun _ _ => w.Work Handles.Any)
      (w.Work Handles.Any) := by
  -- The call names its transaction itself, so it needs no pair of handles.
  have hstanding : Agrees (Store.Late w.deadline) (Standing w.handle w.deadline Handles.Room)
      (call none) (call (some w.handle))
      (fun _ _ => Standing w.handle w.deadline Handles.Any)
      (Standing w.handle w.deadline Handles.Room) :=
    agrees_of_standing hlate
      (fun hs _ => (hcall hs).mono_ok (fun _ _ _ _ h => ⟨hs, trivial, h⟩))
  exact (agrees_ofWorld hstanding).mono_error (fun _ _ h => Work.any h)

theorem agrees_refuseRoot (operation : String) (l : Location) :
    Agrees w.Late (w.Work F) (Registry.refuseRoot operation l) (Registry.refuseRoot operation l)
      (fun _ _ => w.Work F) (w.Work Handles.Any) := by
  unfold Registry.refuseRoot
  cases l.isRoot with
  | true => exact agrees_fail _
  | false => exact agrees_pure (fun _ _ h => h)

theorem transparent_delete (l : Location) : w.Transparent (Registry.delete l) := by
  refine (agrees_refuseRoot _ l).bind_unit (agrees_route ?_)
  have hcall : Agrees w.Late (w.Work Handles.Room)
      (Act.call (.deleteKey l.root.handle l.path.text none))
      (Act.call (.deleteKey l.root.handle l.path.text (some w.handle)))
      (fun _ _ => w.Work Handles.Any) (w.Work Handles.Any) := by
    rw [Act.call_eq, Act.call_eq]
    exact agrees_byPath (fun transaction => perform (.deleteKey _ _ transaction))
      (perform_keeps_late (.deleteKey _ _ _) rfl) (fun hs => agrees_changeKey _ _ _)
  refine Agrees.bind_unit (Agrees.mapError _ ((agrees_log _ _).bind_unit hcall)) ?_
  exact (agrees_log _ _).mono_ok (fun _ _ _ _ h => ⟨rfl, h⟩)

theorem transparent_deleteIfExists (l : Location) :
    w.Transparent (Registry.deleteIfExists l) := by
  refine Agrees.attempt_bind (transparent_delete l) ?_ ?_
  · exact fun _ _ => agrees_pure (fun _ _ h => ⟨rfl, h.2⟩)
  · intro e
    cases e with
    | noSuchKey path => exact agrees_return false
    | _ => exact agrees_fail _

theorem transparent_rename (l : Location) (newName : String) :
    w.Transparent (Registry.rename l newName) := by
  refine (agrees_refuseRoot _ l).bind_unit (agrees_route ?_)
  have hcall : Agrees w.Late (w.Work Handles.Room)
      (Act.call (.renameKey l.root.handle l.path.text newName none))
      (Act.call (.renameKey l.root.handle l.path.text newName (some w.handle)))
      (fun _ _ => w.Work Handles.Any) (w.Work Handles.Any) := by
    rw [Act.call_eq, Act.call_eq]
    exact agrees_byPath (fun transaction => perform (.renameKey _ _ _ transaction))
      (perform_keeps_late (.renameKey _ _ _ _) rfl) (fun hs => agrees_changeKey _ _ _)
  refine Agrees.bind_unit (Agrees.mapError _ ((agrees_log _ _).bind_unit hcall)) ?_
  refine (agrees_log _ _).bind_unit ?_
  cases l.renamed? newName with
  | none => exact agrees_fail _
  | some renamed => exact agrees_return renamed

/-! ## What there is to know about a key -/

/-- What can be asked about a key, except when it was last written to. -/
theorem agrees_info (l : Location) :
    Agrees w.Late (w.Work Handles.Room) (Registry.info l) (Registry.info l)
      (fun x y ctx₁ ctx₂ =>
        ({ x with lastWrite := 0 } : KeyInfo) = { y with lastWrite := 0 } ∧
          w.Work Handles.Any ctx₁ ctx₂)
      (w.Work Handles.Any) := by
  refine agrees_with_key l (fun a b => Agrees.mapError _ ?_)
  rw [Act.call_eq, Act.call_eq]
  exact agrees_read sameRead_info rfl (perform_keeps_late (.queryInfo b) rfl)

theorem transparent_subKeyNames (l : Location) : w.Transparent (Registry.subKeyNames l) := by
  refine agrees_with_key l (fun a b => Agrees.mapError _ ?_)
  refine Registry.agrees_enumerate (fun index => ?_)
  rw [Act.call_eq, Act.call_eq]
  exact agrees_read (sameRead_subKeyName index) rfl (perform_keeps_late (.enumKey b index) rfl)

theorem transparent_subKeys (l : Location) : w.Transparent (Registry.subKeys l) :=
  (transparent_subKeyNames l).bind (fun _ => agrees_return _)

/-! ## Values -/

theorem transparent_storedValues (l : Location) : w.Transparent (Registry.storedValues l) := by
  refine agrees_with_key l (fun a b => Agrees.mapError _ ?_)
  refine Registry.agrees_enumerate (fun index => ?_)
  rw [Act.call_eq, Act.call_eq]
  exact agrees_read (sameRead_valueAt index) rfl (perform_keeps_late (.enumValue b index) rfl)

theorem transparent_valueNames (l : Location) : w.Transparent (Registry.valueNames l) :=
  (transparent_storedValues l).bind (fun _ => agrees_return _)

theorem transparent_values (l : Location) : w.Transparent (Registry.values l) :=
  (transparent_storedValues l).bind (fun _ => agrees_ofExcept _)

theorem transparent_getValue (l : Location) (name : String) :
    w.Transparent (Registry.getValue l name) := by
  refine agrees_with_key l (fun a b => ?_)
  -- The plain route asks with its own handle, the other one with its partner and the transaction.
  have hcall : Agrees w.Late (w.Work (Handles.Pairs w.handle .queryValue a b))
      (Act.call (.getValue a name none)) (Act.call (.getValue b name (some w.handle)))
      (fun x y ctx₁ ctx₂ => x = y ∧ w.Work (Handles.Pairs w.handle .queryValue a b) ctx₁ ctx₂)
      (w.Work (Handles.Pairs w.handle .queryValue a b)) := by
    rw [Act.call_eq, Act.call_eq]
    exact agrees_read (sameRead_value name) rfl (perform_keeps_late (.getValue b name _) rfl)
  refine Agrees.bind_eq (Agrees.mapError _ ((agrees_log _ _).bind_unit hcall)) (fun data => ?_)
  -- Equal data are decoded alike.
  cases Registry.decoded l name data with
  | ok value => exact agrees_pure (fun _ _ h => ⟨rfl, h⟩)
  | error e => exact agrees_throw (fun _ _ h => h)

theorem transparent_valueExists (l : Location) (name : String) :
    w.Transparent (Registry.valueExists l name) := by
  refine Agrees.attempt_bind (transparent_getValue l name) ?_ ?_
  · exact fun _ _ => agrees_pure (fun _ _ h => ⟨rfl, h.2⟩)
  · -- A value that cannot be decoded is there all the same.
    intro e
    cases e with
    | invalidData path name detail => exact agrees_return true
    | noSuchValue path name => exact agrees_return false
    | _ => exact agrees_fail _

theorem transparent_setValue (l : Location) (name : String) (value : Value) :
    w.Transparent (Registry.setValue l name value) := by
  refine (agrees_ofExcept _).bind_eq (fun data => agrees_with_key l (fun a b => ?_))
  have hcall : Agrees w.Late (w.Work (Handles.Pairs w.handle .setValue a b))
      (Act.call (.setValue a name data none)) (Act.call (.setValue b name data (some w.handle)))
      (fun _ _ => w.Work (Handles.Pairs w.handle .setValue a b))
      (w.Work (Handles.Pairs w.handle .setValue a b)) := by
    rw [Act.call_eq, Act.call_eq]
    exact agrees_change (.setValue · name data) (perform_keeps_late (.setValue b name data _) rfl)
  refine Agrees.bind_unit (Agrees.mapError _ ((agrees_log _ _).bind_unit hcall)) ?_
  exact (agrees_log _ _).mono_ok (fun _ _ _ _ h => ⟨rfl, h⟩)

theorem transparent_deleteValue (l : Location) (name : String) :
    w.Transparent (Registry.deleteValue l name) := by
  refine agrees_with_key l (fun a b => ?_)
  have hcall : Agrees w.Late (w.Work (Handles.Pairs w.handle .setValue a b))
      (Act.call (.deleteValue a name none)) (Act.call (.deleteValue b name (some w.handle)))
      (fun _ _ => w.Work (Handles.Pairs w.handle .setValue a b))
      (w.Work (Handles.Pairs w.handle .setValue a b)) := by
    rw [Act.call_eq, Act.call_eq]
    exact agrees_change (.deleteValue · name) (perform_keeps_late (.deleteValue b name _) rfl)
  refine Agrees.bind_unit (Agrees.mapError _ ((agrees_log _ _).bind_unit hcall)) ?_
  exact (agrees_log _ _).mono_ok (fun _ _ _ _ h => ⟨rfl, h⟩)

theorem transparent_deleteValueIfExists (l : Location) (name : String) :
    w.Transparent (Registry.deleteValueIfExists l name) := by
  refine Agrees.attempt_bind (transparent_deleteValue l name) ?_ ?_
  · exact fun _ _ => agrees_pure (fun _ _ h => ⟨rfl, h.2⟩)
  · intro e
    cases e with
    | noSuchValue path name => exact agrees_return false
    | _ => exact agrees_fail _

/-- A value of an expected type. -/
theorem transparent_getSelected (l : Location) (name : String) (expected : ValueKind)
    (select : Value → Option α) : w.Transparent (Registry.getSelected l name expected select) := by
  refine (transparent_getValue l name).bind ?_
  intro value
  cases select value with
  | none => exact agrees_fail _
  | some a => exact agrees_return a

end Surroundings

end TransactionalRegistry
