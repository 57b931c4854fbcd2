import TransactionalRegistry.Proofs.Echoes
import TransactionalRegistry.Proofs.Hashing
import TransactionalRegistry.Proofs.PathTexts

/-!
# Equal keys

Two locations that are equal up to letter case are one key. Equality of paths, the bytes they are
hashed by, the look-up in a tree and the protection of what lies beneath a key agree on that, and so
do all operations: run on either of the two locations, an operation ends alike. Its answer is the
same, and so is its error, but for the locations that they report, which are told as they were
spelled. Afterwards the stores are the same but for spellings, and where a key was created, but for
the letter case of the new keys. The spellings that are left in the stores are those of pending
changes, which have the same effect when they are made, and of open keys.

## Main definitions

* `Location.OneKey`: Two spellings of one key.
* `KeyOperation.Alike`: Two answers of an operation that are the same but for what they report.
* `KeyOperation.Leaves`: What an operation leaves behind under two spellings.

## Theorems

* `Registry.echo_with_key`: Operations that work with an open key.
* `Registry.echo_create`, `Registry.echo_delete`, `Registry.echo_rename` and the like: Keys.
* `Registry.echo_getValue`, `Registry.echo_setValue` and the like: Values.
* `KeyOperation.echo`: Every operation on a key under two spellings.
* `equal_keys_are_one_key`: Comparing, hashing, looking up, operating and protecting agree on which
  keys are equal.
-/

namespace TransactionalRegistry

/-! ## Two spellings of one key -/

/-- Two locations that come about and are equal: spellings of one key. -/
structure Location.OneKey (l m : Location) : Prop where
  left : l.Made
  right : m.Made
  same : l.same m = true

namespace Location.OneKey

variable {l m : Location}

/-- Spellings of one key are at one place. -/
theorem place (h : l.OneKey m) : l.place = m.place :=
  (same_iff l m).mp h.same

/-- They begin at one root key. -/
theorem root (h : l.OneKey m) : l.root = m.root :=
  congrArg Flat.Place.root h.place

/-- One of them is a root key if the other one is. -/
theorem isRoot (h : l.OneKey m) : l.isRoot = m.isRoot :=
  isRoot_of_place h.place

/-- With another name in place of their last, they are still one key, if they have a name at all. -/
theorem renamed (h : l.OneKey m) (name : String) :
    (l.renamed? name).map Location.place = (m.renamed? name).map Location.place := by
  have hplace : ∀ l : Location, (l.renamed? name).map Location.place =
      if l.place.keys = [] then none
      else some ⟨l.place.root, l.place.keys.dropLast ++ (Path.ofText name).folded⟩ := by
    intro l
    rw [renamed?, Path.withName?, Path.parent?, Location.place, Path.folded]
    -- A root key has no name to be replaced; for any other key the way above it stays.
    cases hnames : l.path.names with
    | nil => rfl
    | cons first rest =>
      rw [if_neg (by simp), if_neg (by simp), ← List.map_dropLast, Path.folded, ← List.map_append]
      rfl
  rw [hplace, hplace, h.place]

/-- The texts that the calls are made with spell one way. -/
theorem way (h : l.OneKey m) : Store.SameWay l.path.text m.path.text := by
  rw [Store.SameWay, Path.ofText_text h.left.sound, Path.ofText_text h.right.sound]
  exact congrArg Flat.Place.keys h.place

end Location.OneKey

/-! ## The operations one by one -/

namespace Registry

open Store Act
open Context (Over)

variable {α : Type} {l m : Location}

/-- Two acts on spellings of one key that end alike, on stores that differ in spelling. -/
abbrev EchoSame (m : Location) (act₁ act₂ : Act Store RegistryError α) (A : α → α → Prop) : Prop :=
  Echo m.text (Over Same) act₁ act₂ A (Over Same)

/-- A call on a key that ends alike under two spellings. -/
theorem echo_onKey (operation : String) {P E : Context Store → Context Store → Prop}
    {A : α → α → Prop} {native₁ native₂ : Act Store NativeError α}
    (h : Agrees Never P native₁ native₂ (fun a b ctx₁ ctx₂ => A a b ∧ E ctx₁ ctx₂) E) :
    Echo m.text P (onKey operation l native₁) (onKey operation m native₂) A E :=
  .mapError h fun _ => (RegistryError.withPath_ofNative _ _ _ _).symm

/-- A call on a value that ends alike under two spellings. -/
theorem echo_onValue (operation name : String) {P E : Context Store → Context Store → Prop}
    {A : α → α → Prop} {native₁ native₂ : Act Store NativeError α}
    (h : Agrees Never P native₁ native₂ (fun a b ctx₁ ctx₂ => A a b ∧ E ctx₁ ctx₂) E) :
    Echo m.text P (onValue operation l name native₁) (onValue operation m name native₂) A E :=
  .mapError h fun _ => (RegistryError.withPath_ofNativeValue _ _ _ _ _).symm

/-- A call that is logged before it is made. -/
theorem over_traced {m₁ m₂ : StoreM α} {A : α → α → Prop} {R R' S : Store → Store → Prop}
    (entry : LogEntry) (hnote : ∀ s₁ s₂, R s₁ s₂ → R (s₁.note entry) (s₂.note entry))
    (h : Agrees Never R m₁ m₂ (fun a b s₁ s₂ => A a b ∧ S s₁ s₂) R') :
    Agrees Never (Over R) (do Act.log entry; Act.ofWorld m₁) (do Act.log entry; Act.ofWorld m₂)
      (fun a b ctx₁ ctx₂ => A a b ∧ Over S ctx₁ ctx₂) (Over R') :=
  (over_log entry hnote).bind_unit (over_ofWorld h)

/-- An entry that is made in both logs leaves them with the same spellings. -/
theorem same_note (entry : LogEntry) (s₁ s₂ : Store) (h : Same s₁ s₂) :
    Same (s₁.note entry) (s₂.note entry) :=
  h.note entry

/-- A key is opened alike under two spellings. -/
theorem echo_openAt (h : l.OneKey m) (route : Route) (access : Access) :
    EchoSame m (openAt route l access) (openAt route m access) Eq := by
  refine echo_onKey _ ?_
  unfold Route.openKey Route.trace
  rw [h.root, Act.call_eq, Act.call_eq]
  refine over_traced _ (same_note _) ?_
  exact (respelled_log _).bind_unit (respelled_openKey _ h.way access route.transaction)

/-- An operation that opens a key, works with it and closes it. -/
theorem echo_with_key (h : l.OneKey m) {access : Access} {A : α → α → Prop}
    {f₁ f₂ : Route → KeyHandle → Act Store RegistryError α}
    (hf : ∀ route key, EchoSame m (f₁ route key) (f₂ route key) A) :
    EchoSame m
      (do let route ← Route.current
          let key ← openAt route l access
          closing key (f₁ route key))
      (do let route ← Route.current
          let key ← openAt route m access
          closing key (f₂ route key)) A :=
  .route fun route => (echo_openAt h route access).bind_eq fun key => .closing key (hf route key)

/-- Whether a key is there is answered alike. -/
theorem echo_exists (h : l.OneKey m) : EchoSame m («exists» l) («exists» m) Eq := by
  refine .route (fun route => (echo_openAt h route _).attempt_bind ?_ ?_)
  · rintro key _ rfl
    exact .closing key (.pure rfl (fun _ _ h => h))
  · -- A missing key is an answer, and any other error is passed on by both.
    intro e
    cases e with
    | noSuchKey path => exact .pure rfl (fun _ _ h => h)
    | _ => exact .fail _ (fun _ _ h => h)

/-- A root key is refused under both spellings. -/
theorem echo_refuseRoot (h : l.OneKey m) (operation : String) :
    EchoSame m (refuseRoot operation l) (refuseRoot operation m) Eq := by
  unfold refuseRoot
  rw [h.isRoot]
  cases m.isRoot with
  | true => exact .fail (.rootKeyUnsupported operation l.text) (fun _ _ h => h)
  | false => exact .pure rfl (fun _ _ h => h)

/-- An entry is made in both logs. -/
theorem echo_log (entry : LogEntry) : EchoSame m (Act.log entry) (Act.log entry) Eq :=
  .log entry (same_note entry)

/-- A key is deleted alike under two spellings. -/
theorem echo_delete (h : l.OneKey m) : EchoSame m (delete l) (delete m) Eq := by
  refine (echo_refuseRoot h _).bind_eq (fun _ => .route (fun route => ?_))
  have hcall : EchoSame m
      (onKey "RegDeleteKeyEx" l (route.deleteKey l.root.handle l.path.text))
      (onKey "RegDeleteKeyEx" m (route.deleteKey m.root.handle m.path.text)) Eq := by
    refine echo_onKey _ ?_
    unfold Route.deleteKey Route.trace
    rw [h.root, Act.call_eq, Act.call_eq]
    exact over_traced _ (same_note _)
      ((respelled_changeKey _ h.way route.transaction .deleteKey).mono_ok
        (fun _ _ _ _ h => ⟨rfl, h⟩))
  exact hcall.bind_eq (fun _ => echo_log _)

/-- A missing key is an answer for both; other errors are passed on. -/
theorem echo_deleteIfExists (h : l.OneKey m) :
    EchoSame m (deleteIfExists l) (deleteIfExists m) Eq := by
  refine (echo_delete h).attempt_bind (fun _ _ _ => .pure rfl (fun _ _ h => h)) (fun e => ?_)
  cases e with
  | noSuchKey path => exact .pure rfl (fun _ _ h => h)
  | _ => exact .fail _ (fun _ _ h => h)

/-- A renamed key is answered below the key above, as that was spelled. -/
theorem echo_rename (h : l.OneKey m) (newName : String) :
    EchoSame m (rename l newName) (rename m newName)
      (fun a b => l.renamed? newName = some a ∧ m.renamed? newName = some b ∧
        a.same b = true) := by
  refine (echo_refuseRoot h _).bind_eq (fun _ => .route (fun route => ?_))
  have hcall : EchoSame m
      (onKey "RegRenameKey" l (route.renameKey l.root.handle l.path.text newName))
      (onKey "RegRenameKey" m (route.renameKey m.root.handle m.path.text newName)) Eq := by
    refine echo_onKey _ ?_
    unfold Route.renameKey Route.trace
    rw [h.root, Act.call_eq, Act.call_eq]
    exact over_traced _ (same_note _)
      ((respelled_changeKey _ h.way route.transaction (.renameKey newName)).mono_ok
        (fun _ _ _ _ h => ⟨rfl, h⟩))
  refine hcall.bind_eq (fun _ => (echo_log _).bind_eq (fun _ => ?_))
  -- The new locations are one place, or there is none for a root key.
  have hplace := h.renamed newName
  cases hl : l.renamed? newName with
  | none =>
    rw [hl] at hplace
    rw [Option.map_eq_none_iff.mp hplace.symm]
    exact .fail (.rootKeyUnsupported "rename" l.text) (fun _ _ h => h)
  | some a =>
    rw [hl] at hplace
    obtain ⟨b, hm, hsame⟩ := Option.map_eq_some_iff.mp hplace.symm
    rw [hm]
    exact .pure ⟨rfl, rfl, (Location.same_iff a b).mpr hsame.symm⟩ (fun _ _ h => h)

/-! ### Creating keys -/

/-- Two stores that differ in spelling, the first of which has come from `s` by looks. -/
def Looking (s s₁ s₂ : Store) : Prop :=
  Same s₁ s₂ ∧ ∀ owner, Looked owner s s₁

/-- An entry in both logs counts as a look. -/
theorem looking_note (s : Store) (entry : LogEntry) (s₁ s₂ : Store) (h : Looking s s₁ s₂) :
    Looking s (s₁.note entry) (s₂.note entry) :=
  ⟨h.1.note entry, fun owner => (h.2 owner).trans (looked_note owner s₁ entry)⟩

/-- Stores that differ in spelling alone differ in no more than the letter case of new keys. -/
theorem over_of_looking {s : Store} (ctx₁ ctx₂ : Context Store) (h : Over (Looking s) ctx₁ ctx₂) :
    Over (SameUnder s.uncasedSince) ctx₁ ctx₂ :=
  ⟨Same.under h.1.1, h.2⟩

/-- A key that may be there is created alike, but for the letter case of new keys. -/
theorem echo_createIfMissing (h : l.OneKey m) (s : Store) :
    Echo m.text (Over (Looking s)) (createIfMissing l) (createIfMissing m) Eq
      (Over (SameUnder s.uncasedSince)) := by
  unfold createIfMissing
  rw [h.isRoot]
  cases m.isRoot with
  | true => exact .pure rfl over_of_looking
  | false =>
    refine .route (fun route => ?_)
    have hcall : Echo m.text (Over (Looking s))
        (onKey "RegCreateKeyEx" l (route.createKey l.root.handle l.path.text .queryValue))
        (onKey "RegCreateKeyEx" m (route.createKey m.root.handle m.path.text .queryValue)) Eq
        (Over (SameUnder s.uncasedSince)) := by
      refine echo_onKey _ ?_
      unfold Route.createKey Route.trace
      rw [h.root, Act.call_eq, Act.call_eq]
      refine over_traced _ (looking_note s _) ?_
      exact (agrees_modify (fun _ _ h => looking_note s _ _ _ h)).bind_unit
        (respelled_createKey s _ h.way .queryValue route.transaction)
    refine hcall.bind_eq (fun answer => .closing answer.1 ?_)
    -- Only a new key is told of in the log, and it is new under both spellings.
    by_cases hnew : answer.2 = .createdNew
    · simp only [if_pos hnew]
      exact (Echo.log _ (fun _ _ h => h.note _)).bind_eq (fun _ => .pure rfl (fun _ _ h => h))
    · simp only [if_neg hnew]
      exact .pure rfl (fun _ _ h => h)

/-- A key is created alike, but for the letter case of new keys. -/
theorem echo_create (h : l.OneKey m) (s : Store) :
    Echo m.text (Over (Looking s)) (create l) (create m) Eq
      (Over (SameUnder s.uncasedSince)) := by
  refine (echo_createIfMissing h s).bind_eq (fun created => ?_)
  cases created with
  | true => exact .pure rfl (fun _ _ h => h)
  | false => exact .fail (.keyAlreadyExists l.text) (fun _ _ h => h)

/-! ### What there is to know about a key -/

/-- What there is to know of a key is answered alike. -/
theorem echo_info (h : l.OneKey m) : EchoSame m (info l) (info m) Eq := by
  refine echo_with_key h (fun _ key => ?_)
  refine echo_onKey _ ?_
  rw [Act.call_eq]
  exact over_ofWorld (respelled_withNode key .queryValue none fun n => .ok n.info)

/-- The names below a key are listed alike. -/
theorem echo_subKeyNames (h : l.OneKey m) : EchoSame m (subKeyNames l) (subKeyNames m) Eq := by
  refine echo_with_key h (fun _ key => ?_)
  refine echo_onKey _ (agrees_enumerate (fun index => ?_))
  rw [Act.call_eq]
  exact over_ofWorld (respelled_withNode key _ none _)

/-- The same keys are listed, each below the key that was asked for, as that was spelled. -/
theorem echo_subKeys (h : l.OneKey m) :
    EchoSame m (subKeys l) (subKeys m)
      (fun as bs => ∃ names : List String, as = names.map l.below ∧ bs = names.map m.below) :=
  (echo_subKeyNames h).bind_eq fun names => .pure ⟨names, rfl, rfl⟩ (fun _ _ h => h)

/-! ### Values -/

/-- The values of a key are listed alike. -/
theorem echo_storedValues (h : l.OneKey m) :
    EchoSame m (storedValues l) (storedValues m) Eq := by
  refine echo_with_key h (fun _ key => ?_)
  refine echo_onKey _ (agrees_enumerate (fun index => ?_))
  rw [Act.call_eq]
  exact over_ofWorld (respelled_withNode key _ none _)

/-- The names of its values are listed alike. -/
theorem echo_valueNames (h : l.OneKey m) : EchoSame m (valueNames l) (valueNames m) Eq :=
  (echo_storedValues h).bind_eq fun _ => .pure rfl (fun _ _ h => h)

/-- A value that cannot be read is reported under the path of its key. -/
theorem decoded_withPath (l m : Location) (name : String) (data : ValueData) :
    decoded m name data = (decoded l name data).mapError (RegistryError.withPath m.text) := by
  unfold decoded
  cases Value.decode data <;> rfl

/-- Of several values the first that cannot be read is reported under the path of its key. -/
theorem decodedAll_withPath (l m : Location) (stored : List (String × ValueData)) :
    decodedAll m stored = (decodedAll l stored).mapError (RegistryError.withPath m.text) := by
  induction stored with
  | nil => rfl
  | cons entry rest ih =>
    rcases entry with ⟨name, data⟩
    rw [decodedAll, decodedAll, decoded_withPath l m, ih]
    cases decoded l name data with
    | error e => rfl
    | ok value =>
      cases decodedAll l rest with
      | error e => rfl
      | ok values => rfl

/-- All values are read alike. -/
theorem echo_values (h : l.OneKey m) : EchoSame m (values l) (values m) Eq :=
  (echo_storedValues h).bind_eq fun stored =>
    .ofExcept (decodedAll_withPath l m stored) (fun _ _ h => h)

/-- A value is read alike under two spellings of its key. -/
theorem echo_getValue (h : l.OneKey m) (name : String) :
    EchoSame m (getValue l name) (getValue m name) Eq := by
  refine echo_with_key h (fun route key => ?_)
  have hcall : EchoSame m (onValue "RegGetValue" l name (route.getValue key name))
      (onValue "RegGetValue" m name (route.getValue key name)) Eq := by
    refine echo_onValue _ name ?_
    unfold Route.getValue Route.trace
    rw [Act.call_eq]
    exact over_traced _ (same_note _) (respelled_withNode key _ route.transaction _)
  exact hcall.bind_eq (fun data => .ofExcept (decoded_withPath l m name data) (fun _ _ h => h))

/-- Whether there is a value is answered alike. -/
theorem echo_valueExists (h : l.OneKey m) (name : String) :
    EchoSame m (valueExists l name) (valueExists m name) Eq := by
  refine (echo_getValue h name).attempt_bind (fun _ _ _ => .pure rfl (fun _ _ h => h))
    (fun e => ?_)
  cases e with
  | invalidData path name cause => exact .pure rfl (fun _ _ h => h)
  | noSuchValue path name => exact .pure rfl (fun _ _ h => h)
  | _ => exact .fail _ (fun _ _ h => h)

/-- A value is set alike under two spellings of its key. -/
theorem echo_setValue (h : l.OneKey m) (name : String) (value : Value) :
    EchoSame m (setValue l name value) (setValue m name value) Eq := by
  -- Whether the value can be encoded has nothing to do with the key but for the path in the error.
  have hencoded : value.encode.mapError (RegistryError.invalidData m.text name) =
      (value.encode.mapError (RegistryError.invalidData l.text name)).mapError
        (RegistryError.withPath m.text) := by
    cases value.encode <;> rfl
  refine Echo.bind_eq (.ofExcept hencoded (fun _ _ h => h)) (fun data => ?_)
  refine echo_with_key h (fun route key => ?_)
  have hcall : EchoSame m (onKey "RegSetValueEx" l (route.setValue key name data))
      (onKey "RegSetValueEx" m (route.setValue key name data)) Eq := by
    refine echo_onKey _ ?_
    unfold Route.setValue Route.trace
    rw [Act.call_eq]
    exact over_traced _ (same_note _)
      ((respelled_changeValue key route.transaction (.setValue name data)).mono_ok
        (fun _ _ _ _ h => ⟨rfl, h⟩))
  exact hcall.bind_eq (fun _ => echo_log _)

/-- A value is deleted alike under two spellings of its key. -/
theorem echo_deleteValue (h : l.OneKey m) (name : String) :
    EchoSame m (deleteValue l name) (deleteValue m name) Eq := by
  refine echo_with_key h (fun route key => ?_)
  have hcall : EchoSame m (onValue "RegDeleteValue" l name (route.deleteValue key name))
      (onValue "RegDeleteValue" m name (route.deleteValue key name)) Eq := by
    refine echo_onValue _ name ?_
    unfold Route.deleteValue Route.trace
    rw [Act.call_eq]
    exact over_traced _ (same_note _)
      ((respelled_changeValue key route.transaction (.deleteValue name)).mono_ok
        (fun _ _ _ _ h => ⟨rfl, h⟩))
  exact hcall.bind_eq (fun _ => echo_log _)

/-- A missing value is an answer for both; other errors are passed on. -/
theorem echo_deleteValueIfExists (h : l.OneKey m) (name : String) :
    EchoSame m (deleteValueIfExists l name) (deleteValueIfExists m name) Eq := by
  refine (echo_deleteValue h name).attempt_bind (fun _ _ _ => .pure rfl (fun _ _ h => h))
    (fun e => ?_)
  cases e with
  | noSuchValue path name => exact .pure rfl (fun _ _ h => h)
  | _ => exact .fail _ (fun _ _ h => h)

/-- A value of an expected type. -/
theorem echo_getSelected (h : l.OneKey m) (name : String) (expected : ValueKind)
    (select : Value → Option α) :
    EchoSame m (getSelected l name expected select) (getSelected m name expected select) Eq := by
  refine (echo_getValue h name).bind_eq (fun value => ?_)
  cases select value with
  | none => exact .fail (.typeMismatch l.text name expected value.kind) (fun _ _ h => h)
  | some a => exact .pure rfl (fun _ _ h => h)

end Registry

/-! ## All operations -/

/-- Two answers of an operation on `l` and on `m` are the same. Locations among them are told from
    the location that the operation was given. -/
def KeyOperation.Alike (l m : Location) :
    (operation : KeyOperation) → operation.Answer → operation.Answer → Prop
  | .scripted (.rename newName), a, b =>
    l.renamed? newName = some a ∧ m.renamed? newName = some b ∧ a.same b = true
  | .scripted .subKeys, as, bs =>
    ∃ names : List String, as = names.map l.below ∧ bs = names.map m.below
  | _, a, b => a = b

/-- What an operation leaves behind under two spellings, run on the store `s`: stores that differ in
    spelling, and for the operations that create keys in the letter case of new keys as well. -/
def KeyOperation.Leaves (s : Store) : KeyOperation → Store → Store → Prop
  | .scripted .create => Store.SameUnder s.uncasedSince
  | .scripted .createIfMissing => Store.SameUnder s.uncasedSince
  | _ => Store.Same

/-- Every operation ends alike on two spellings of one key. -/
theorem KeyOperation.echo {l m : Location} (h : l.OneKey m) (operation : KeyOperation)
    (ctx : Context Store) :
    Act.Echoed m.text (operation.Alike l m) (Context.Over (operation.Leaves ctx.world))
      (operation.act l ctx) (operation.act m ctx) := by
  -- Both runs begin in the same context, which is as much alike as can be.
  have hsame : Context.Over Store.Same ctx ctx := ⟨rfl, rfl, rfl⟩
  have hlooking : Context.Over (Registry.Looking ctx.world) ctx ctx :=
    ⟨⟨rfl, fun owner => .refl owner ctx.world⟩, rfl, rfl⟩
  cases operation with
  | fullInfo => exact Registry.echo_info h ctx ctx hsame
  | scripted step =>
    cases step with
    | «exists» => exact Registry.echo_exists h ctx ctx hsame
    | create => exact Registry.echo_create h ctx.world ctx ctx hlooking
    | createIfMissing => exact Registry.echo_createIfMissing h ctx.world ctx ctx hlooking
    | delete => exact Registry.echo_delete h ctx ctx hsame
    | deleteIfExists => exact Registry.echo_deleteIfExists h ctx ctx hsame
    | rename newName => exact Registry.echo_rename h newName ctx ctx hsame
    | info =>
      exact (Registry.echo_info h).bind_eq (fun _ => .pure rfl (fun _ _ h => h)) ctx ctx hsame
    | subKeyNames => exact Registry.echo_subKeyNames h ctx ctx hsame
    | subKeys => exact Registry.echo_subKeys h ctx ctx hsame
    | valueNames => exact Registry.echo_valueNames h ctx ctx hsame
    | values => exact Registry.echo_values h ctx ctx hsame
    | get name => exact Registry.echo_getValue h name ctx ctx hsame
    | valueExists name => exact Registry.echo_valueExists h name ctx ctx hsame
    | set name value => exact Registry.echo_setValue h name value ctx ctx hsame
    | deleteValue name => exact Registry.echo_deleteValue h name ctx ctx hsame
    | deleteValueIfExists name => exact Registry.echo_deleteValueIfExists h name ctx ctx hsame
    | getString name => exact Registry.echo_getSelected h name _ _ ctx ctx hsame
    | getDword name => exact Registry.echo_getSelected h name _ _ ctx ctx hsame
    | getQword name => exact Registry.echo_getSelected h name _ _ ctx ctx hsame
    | getMultiString name => exact Registry.echo_getSelected h name _ _ ctx ctx hsame
    | getBinary name => exact Registry.echo_getSelected h name _ _ ctx ctx hsame

/-! ## Equality, hashing, look-up and protection -/

/-- Paths are equal exactly if they lead to one place below a root key. -/
theorem Path.place_eq_iff (p q : Path) (root : RootKey) :
    p.same q = true ↔ (Location.mk root p).place = (Location.mk root q).place := by
  rw [Path.same_iff, Location.place, Location.place, Flat.Place.mk.injEq]
  exact (and_iff_right rfl).symm

/-- A path starts with another one exactly if its location lies within that of the other. -/
theorem Path.startsWith_iff_isWithin {p q : Path} (hp : p.Made) (hq : q.Made) (root : RootKey) :
    p.startsWith q = true ↔ ((Location.ofRoot root).below p.text).isWithin
      ((Location.ofRoot root).below q.text) = true := by
  have hplace : ∀ r : Path, r.Made → (Location.ofRoot root).below r.text = ⟨root, r⟩ :=
    fun r hr => Location.below_text (l := ⟨root, r⟩) hr.sound
  rw [hplace p hp, hplace q hq, Location.isWithin_iff, Flat.Place.within_iff, Path.startsWith_iff]
  exact (and_iff_right rfl).symm

/-- What is protected is what lies beneath a protected key. -/
theorem Store.isProtected_eq {p : Path} (hp : p.Made) (root : RootKey) (s : Store) :
    s.isProtected ((Location.ofRoot root).below p.text) =
      s.protectedPlaces.any fun l => decide (root = l.root) && p.startsWith l.path := by
  rw [Location.below_text (l := ⟨root, p⟩) hp.sound, isProtected]
  refine congrArg s.protectedPlaces.any (funext fun l => ?_)
  rw [Bool.eq_iff_iff, Location.isWithin_iff, Flat.Place.within_iff, Bool.and_eq_true,
    decide_eq_true_iff, Path.startsWith_iff]
  exact Iff.rfl

/-- Comparing, hashing, looking up, operating and protecting agree on which keys are equal, and on
    what lies beneath a key. -/
theorem equal_keys_are_one_key :
    (∀ p q : Path, (p.same q = true ↔ p.folded = q.folded) ∧
      (p.same q = true ↔ p.hashInput = q.hashInput)) ∧
    (∀ p q : Path, p.same q = true → ∀ (trees : Hives) (root : RootKey),
      trees.find? ⟨root, p⟩ = trees.find? ⟨root, q⟩ ∧
        ∀ missing change, trees.update root p.names missing change =
          trees.update root q.names missing change) ∧
    (∀ l m : Location, l.Made → m.Made → l.same m = true →
      ∀ (operation : KeyOperation) (ctx : Context Store),
        Act.Echoed m.text (operation.Alike l m) (Context.Over (operation.Leaves ctx.world))
          (operation.act l ctx) (operation.act m ctx)) ∧
    (∀ log₁ log₂ : List Mutation, log₁.map Mutation.folded = log₂.map Mutation.folded →
      ∀ (now : Time) (trees : Hives),
        Hives.AlikeUpToCase (Mutation.replay now trees log₁) (Mutation.replay now trees log₂)) ∧
    (∀ (p q : Path) (root : RootKey), p.Made → q.Made →
      (p.startsWith q = true ↔ ((Location.ofRoot root).below p.text).isWithin
        ((Location.ofRoot root).below q.text) = true)) ∧
    ∀ (p : Path) (root : RootKey) (s : Store), p.Made →
      s.isProtected ((Location.ofRoot root).below p.text) =
        s.protectedPlaces.any fun l => decide (root = l.root) && p.startsWith l.path := by
  refine ⟨fun p q => ⟨Path.same_iff p q, ?_⟩, fun p q hsame trees root => ?_, ?_, ?_, ?_, ?_⟩
  · rw [Path.same_iff, Path.hashInput_eq_iff]
  · have hplace := (Path.place_eq_iff p q root).mp hsame
    exact ⟨Hives.find?_of_place hplace trees,
      fun missing change => Hives.update_of_place hplace missing change trees⟩
  · exact fun l m hl hm hsame operation ctx => operation.echo ⟨hl, hm, hsame⟩ ctx
  · exact fun log₁ log₂ hlog now trees => Mutation.replay_upToCase hlog now (fun _ => rfl)
  · exact fun p q root hp hq => Path.startsWith_iff_isWithin hp hq root
  · exact fun p root s hp => Store.isProtected_eq hp root s

/-- A key under two spellings, created in a store that has neither and protects it. -/
theorem notes_are_one_key :
    Path.same ⟨["Notes"]⟩ ⟨["NOTES"]⟩ = true ∧
      (Hives.empty 0).find? ⟨.currentUser, ⟨["Notes"]⟩⟩ =
        (Hives.empty 0).find? ⟨.currentUser, ⟨["NOTES"]⟩⟩ ∧
      Location.Made ⟨.currentUser, ⟨["Notes"]⟩⟩ ∧ Location.Made ⟨.currentUser, ⟨["NOTES"]⟩⟩ ∧
      Location.same ⟨.currentUser, ⟨["Notes"]⟩⟩ ⟨.currentUser, ⟨["NOTES"]⟩⟩ = true ∧
      Act.Echoed "HKEY_CURRENT_USER\\NOTES" Eq
        (Context.Over (Store.SameUnder (Store.fresh ⟨0, []⟩).uncasedSince))
        (Registry.create ⟨.currentUser, ⟨["Notes"]⟩⟩ (Context.ofWorld (Store.fresh ⟨0, []⟩)))
        (Registry.create ⟨.currentUser, ⟨["NOTES"]⟩⟩ (Context.ofWorld (Store.fresh ⟨0, []⟩))) ∧
      [Mutation.createKey ⟨.currentUser, ⟨["Notes"]⟩⟩].map Mutation.folded =
        [Mutation.createKey ⟨.currentUser, ⟨["NOTES"]⟩⟩].map Mutation.folded ∧
      Hives.AlikeUpToCase
        (Mutation.replay 0 (Hives.empty 0) [.createKey ⟨.currentUser, ⟨["Notes"]⟩⟩])
        (Mutation.replay 0 (Hives.empty 0) [.createKey ⟨.currentUser, ⟨["NOTES"]⟩⟩]) ∧
      Path.Made ⟨["Notes", "Old"]⟩ ∧ Path.Made ⟨["NOTES"]⟩ ∧
      (Path.startsWith ⟨["Notes", "Old"]⟩ ⟨["NOTES"]⟩ = true ↔
        ((Location.ofRoot .currentUser).below "Notes\\Old").isWithin
          ((Location.ofRoot .currentUser).below "NOTES") = true) ∧
      ((Store.fresh ⟨0, []⟩).protect ⟨.currentUser, ⟨["NOTES"]⟩⟩).isProtected
        ((Location.ofRoot .currentUser).below "Notes\\Old") = true := by
  obtain ⟨-, hfind, hoperations, hreplay, hwithin, hprotected⟩ := equal_keys_are_one_key
  have hsame : Path.same ⟨["Notes"]⟩ ⟨["NOTES"]⟩ = true := by decide
  have hnotes : Location.Made ⟨.currentUser, ⟨["Notes"]⟩⟩ := .down (.root .currentUser) "Notes"
  have hcapital : Location.Made ⟨.currentUser, ⟨["NOTES"]⟩⟩ := .down (.root .currentUser) "NOTES"
  have hold : Path.Made ⟨["Notes", "Old"]⟩ := .read "Notes\\Old"
  have habove : Path.Made ⟨["NOTES"]⟩ := .read "NOTES"
  have hlog : [Mutation.createKey ⟨.currentUser, ⟨["Notes"]⟩⟩].map Mutation.folded =
      [Mutation.createKey ⟨.currentUser, ⟨["NOTES"]⟩⟩].map Mutation.folded :=
    congrArg (fun l => [Mutation.createKey l])
      (Location.folded_eq_iff.mpr ((Location.same_iff _ _).mp hsame))
  have hcreated := hoperations _ _ hnotes hcapital hsame (.scripted .create)
    (Context.ofWorld (Store.fresh ⟨0, []⟩))
  refine ⟨hsame, (hfind _ _ hsame _ _).1, hnotes, hcapital, hsame,
    hcreated.mono (fun _ _ h => h) (fun _ _ h => h), hlog, hreplay _ _ hlog _ _, hold, habove,
    hwithin _ _ _ hold habove, (hprotected _ _ _ hold).trans ?_⟩
  decide

end TransactionalRegistry
