import TransactionalRegistry.Proofs.Grafting

/-!
# Well-named trees

A key is tidy when its two tables are in order, every entry stands in its table under the folded
form of its own name, and the names of the keys below it are single names. The tables being in
order, no two entries are under one folded name, so no two names differ in letter case alone. A tree
is well named when all of its keys are tidy, at any depth.

The changes touch a table and a name separately, a renaming most of all, which takes an entry out
under one folded name and puts it back under another with its name rewritten. That a tree stays
well named is a matter of the key that is changed and of the graft that puts it in its place; only
creating keys takes names from outside, and it is given the names of a path, which are single.

## Main definitions

* `Table.Ordered`: A table in increasing order of its keys.
* `Node.Tidy`: What is asked of one key.
* `Node.Holds`: Being a key of a tree, at any depth.
* `Node.WellNamed`, `Hives.WellNamed`: Trees all of whose keys are tidy.
* `Path.Sound`: A path all of whose names are single.
* `Mutation.target`: The location that a change is about.
* `Mutation.Sound`: A change that creates keys under single names only.

## Theorems

* `Table.Ordered.insert`, `Table.Ordered.nodup`: Tables in order stay so, and have no key twice.
* `Node.Tidy.nodup_subKeys`, `Node.Tidy.nodup_values`: No two names differ in letter case alone.
* `Node.wellNamed_iff`: A tree is well named when its first key is tidy and so are those below.
* `Node.WellNamed.graft`, `Node.WellNamed.create`: Changing and creating keep a tree well named.
* `Path.sound_ofText`, `Path.Sound.join`: Paths that are read from text are sound.
* `Mutation.Sound.apply`: A sound change keeps the five trees well named.
-/

namespace TransactionalRegistry

/-! ## Tables in order -/

namespace Table

variable {α : Type} {table : Table String α} {key : String} {entry : α} {pair : String × α}

/-- The keys of a table increase from each entry to the next. -/
def Ordered (table : Table String α) : Prop :=
  table.Pairwise fun a b => a.1 < b.1

/-- What is in a table after an entry was put is this entry, or was there before. -/
theorem mem_insert (h : pair ∈ insert table key entry) : pair = (key, entry) ∨ pair ∈ table := by
  induction table with
  | nil => exact Or.inl (List.mem_singleton.mp h)
  | cons head rest ih =>
      rcases head with ⟨k, a⟩
      rw [insert] at h
      by_cases hk : key = k
      · rw [if_pos hk] at h
        exact (List.mem_cons.mp h).imp id (List.mem_cons_of_mem _)
      · rw [if_neg hk] at h
        by_cases hlt : key < k
        · rw [if_pos hlt] at h
          exact List.mem_cons.mp h
        · rw [if_neg hlt] at h
          rcases List.mem_cons.mp h with rfl | hrest
          · exact Or.inr List.mem_cons_self
          · exact (ih hrest).imp id (List.mem_cons_of_mem _)

/-- What is in a table after a key was taken out was there before. -/
theorem mem_erase (h : pair ∈ erase table key) : pair ∈ table :=
  (List.mem_filter.mp h).1

/-- A table stays in order when an entry is put. -/
theorem Ordered.insert (h : Ordered table) (key : String) (entry : α) :
    Ordered (insert table key entry) := by
  induction table with
  | nil => exact List.pairwise_singleton _ _
  | cons head rest ih =>
      rcases head with ⟨k, a⟩
      obtain ⟨hhead, hrest⟩ := List.pairwise_cons.mp h
      rw [Table.insert]
      by_cases hk : key = k
      · -- The entry takes the place of the one with its key.
        rw [if_pos hk]
        exact List.pairwise_cons.mpr ⟨fun b hb => hk ▸ hhead b hb, hrest⟩
      · rw [if_neg hk]
        by_cases hlt : key < k
        · rw [if_pos hlt]
          refine List.pairwise_cons.mpr ⟨fun b hb => ?_, h⟩
          rcases List.mem_cons.mp hb with rfl | hb'
          · exact hlt
          · exact String.lt_trans hlt (hhead b hb')
        · rw [if_neg hlt]
          -- The new key is neither the first one nor before it, so it comes after it.
          have hafter : k < key :=
            Decidable.byContradiction fun hnot => hk (String.le_antisymm hnot hlt)
          refine List.pairwise_cons.mpr ⟨fun b hb => ?_, ih hrest⟩
          rcases mem_insert hb with rfl | hb'
          · exact hafter
          · exact hhead b hb'

/-- A table stays in order when a key is taken out. -/
theorem Ordered.erase (h : Ordered table) (key : String) : Ordered (erase table key) :=
  List.Pairwise.filter _ h

/-- No key is twice in a table that is in order. -/
theorem Ordered.nodup (h : Ordered table) : (table.map (·.1)).Nodup := by
  rw [List.nodup_iff_pairwise_ne, List.pairwise_map]
  refine h.imp (fun {a b} hlt heq => ?_)
  rw [heq] at hlt
  exact String.lt_irrefl _ hlt

end Table

/-! ## Single names -/

/-- A path all of whose names are single. -/
def Path.Sound (p : Path) : Prop :=
  ∀ name ∈ p.names, name ≠ "" ∧ separator ∉ name.toList

namespace Path

/-- There is no separator in a piece between separators. -/
theorem separator_not_mem_pieces (cs : List Char) : ∀ piece ∈ pieces cs, separator ∉ piece := by
  induction cs with
  | nil =>
    intro piece hpiece
    rw [pieces, List.mem_singleton] at hpiece
    simp [hpiece]
  | cons c rest ih =>
    rw [pieces]
    by_cases hc : c = separator
    · rw [if_pos hc]
      intro piece hpiece
      rcases List.mem_cons.mp hpiece with rfl | hrest
      · simp
      · exact ih piece hrest
    · -- Another character is put in front of the first piece.
      rw [if_neg hc]
      cases hpieces : pieces rest with
      | nil =>
        intro piece hpiece
        rw [List.mem_singleton] at hpiece
        simp [hpiece, Ne.symm hc]
      | cons first more =>
        rw [hpieces] at ih
        intro piece hpiece
        rcases List.mem_cons.mp hpiece with rfl | hmore
        · have hfirst := ih first List.mem_cons_self
          simp [hfirst, Ne.symm hc]
        · exact ih piece (List.mem_cons_of_mem _ hmore)

/-- The path of a root has no names. -/
theorem sound_root : root.Sound := by
  intro name hname
  exact absurd hname (by simp [root])

/-- The names that a text spells are its pieces that are not empty. -/
theorem sound_ofText (text : String) : (ofText text).Sound := by
  intro name hname
  obtain ⟨piece, hpiece, rfl⟩ := List.mem_map.mp hname
  obtain ⟨hmem, hne⟩ := List.mem_filter.mp hpiece
  refine ⟨fun hempty => ?_, ?_⟩
  · -- A name is empty only if its piece is, and empty pieces have been left out.
    have hnil : piece = [] := by
      have := congrArg String.toList hempty
      simpa using this
    simp [hnil] at hne
  · rw [String.toList_ofList]
    exact separator_not_mem_pieces _ piece hmem

/-- A sound path stays so when a way is added to it. -/
theorem Sound.join {p : Path} (h : p.Sound) (relative : String) : (p.join relative).Sound := by
  intro name hname
  rcases List.mem_append.mp hname with hp | hrelative
  · exact h name hp
  · exact sound_ofText relative name hrelative

end Path

/-! ## Tidy keys -/

namespace Node

/-- The tables of a key are in order, each entry is under the folded form of its own name, and the
    names of the keys below are single. -/
structure Tidy (n : Node) : Prop where
  subKeys_ordered : Table.Ordered n.subKeys
  values_ordered : Table.Ordered n.values
  subKeys_folded : ∀ entry ∈ n.subKeys, entry.1 = Text.fold entry.2.name
  values_folded : ∀ entry ∈ n.values, entry.1 = Text.fold entry.2.name
  subKeys_single : ∀ entry ∈ n.subKeys,
    entry.2.name ≠ "" ∧ Path.separator ∉ entry.2.name.toList

/-- `m` is a key of the tree `n`: its first key, or one below it at any depth. -/
inductive Holds : Node → Node → Prop
  | here (n : Node) : Holds n n
  | under {n child m : Node} {key : String} (hchild : (key, child) ∈ n.subKeys)
      (hm : Holds child m) : Holds n m

/-- All keys of a tree are tidy. -/
def WellNamed (n : Node) : Prop :=
  ∀ m, n.Holds m → m.Tidy

variable {n m child found : Node} {name key : String} {names : List String} {now : Time}

/-- No two keys below a tidy one have names that differ in letter case alone. -/
theorem Tidy.nodup_subKeys (h : n.Tidy) :
    (n.subKeys.map fun entry => Text.fold entry.2.name).Nodup := by
  have hkeys : (n.subKeys.map fun entry => Text.fold entry.2.name) = n.subKeys.map (·.1) :=
    List.map_congr_left (fun entry hentry => (h.subKeys_folded entry hentry).symm)
  rw [hkeys]
  exact h.subKeys_ordered.nodup

/-- No two values of a tidy key have names that differ in letter case alone. -/
theorem Tidy.nodup_values (h : n.Tidy) :
    (n.values.map fun entry => Text.fold entry.2.name).Nodup := by
  have hkeys : (n.values.map fun entry => Text.fold entry.2.name) = n.values.map (·.1) :=
    List.map_congr_left (fun entry hentry => (h.values_folded entry hentry).symm)
  rw [hkeys]
  exact h.values_ordered.nodup

/-- A tree is well named if its first key is tidy and the trees below it are well named. -/
theorem wellNamed_iff (n : Node) :
    n.WellNamed ↔ n.Tidy ∧ ∀ entry ∈ n.subKeys, entry.2.WellNamed := by
  constructor
  · intro h
    exact ⟨h n (.here n), fun entry hentry m hm => h m (.under hentry hm)⟩
  · rintro ⟨hn, hbelow⟩ m hm
    cases hm with
    | here => exact hn
    | under hchild hm => exact hbelow _ hchild m hm

/-- A new key is well named. -/
theorem wellNamed_empty (name : String) (now : Time) : (empty name now).WellNamed := by
  rw [wellNamed_iff]
  exact ⟨⟨.nil, .nil, by simp [empty], by simp [empty], by simp [empty]⟩, by simp [empty]⟩

namespace WellNamed

/-- A tree stays well named if only the name or the last write of its first key changes. -/
theorem of_tables (h : n.WellNamed) (hsub : m.subKeys = n.subKeys) (hvalues : m.values = n.values) :
    m.WellNamed := by
  obtain ⟨hn, hbelow⟩ := (wellNamed_iff n).mp h
  rw [wellNamed_iff, hsub]
  refine ⟨⟨?_, ?_, ?_, ?_, ?_⟩, hbelow⟩
  · rw [hsub]; exact hn.subKeys_ordered
  · rw [hvalues]; exact hn.values_ordered
  · rw [hsub]; exact hn.subKeys_folded
  · rw [hvalues]; exact hn.values_folded
  · rw [hsub]; exact hn.subKeys_single

/-- The time of the last write has no part in it. -/
theorem touch (h : n.WellNamed) (now : Time) : (n.touch now).WellNamed :=
  h.of_tables rfl rfl

/-- A child is well named and has the name that it is found under, up to letter case. -/
theorem of_child? (h : n.WellNamed) (hchild : n.child? name = some child) :
    child.WellNamed ∧ Text.fold name = Text.fold child.name ∧ child.name ≠ "" ∧
      Path.separator ∉ child.name.toList := by
  obtain ⟨hn, hbelow⟩ := (wellNamed_iff n).mp h
  have hmem := Table.mem_of_find? hchild
  exact ⟨hbelow _ hmem, hn.subKeys_folded _ hmem, hn.subKeys_single _ hmem⟩

/-- A well-named child may be put under its own name. -/
theorem putChild (h : n.WellNamed) (hchild : child.WellNamed)
    (hfold : Text.fold name = Text.fold child.name)
    (hsingle : child.name ≠ "" ∧ Path.separator ∉ child.name.toList) :
    (n.putChild name child).WellNamed := by
  obtain ⟨hn, hbelow⟩ := (wellNamed_iff n).mp h
  rw [wellNamed_iff]
  refine ⟨⟨hn.subKeys_ordered.insert _ _, hn.values_ordered, fun entry hentry => ?_,
    hn.values_folded, fun entry hentry => ?_⟩, fun entry hentry => ?_⟩
  · rcases Table.mem_insert hentry with rfl | hold
    · exact hfold
    · exact hn.subKeys_folded entry hold
  · rcases Table.mem_insert hentry with rfl | hold
    · exact hsingle
    · exact hn.subKeys_single entry hold
  · rcases Table.mem_insert hentry with rfl | hold
    · exact hchild
    · exact hbelow entry hold

/-- Any child may be taken away. -/
theorem dropChild (h : n.WellNamed) (name : String) : (n.dropChild name).WellNamed := by
  obtain ⟨hn, hbelow⟩ := (wellNamed_iff n).mp h
  rw [wellNamed_iff]
  exact ⟨⟨hn.subKeys_ordered.erase _, hn.values_ordered,
    fun entry hentry => hn.subKeys_folded entry (Table.mem_erase hentry), hn.values_folded,
    fun entry hentry => hn.subKeys_single entry (Table.mem_erase hentry)⟩,
    fun entry hentry => hbelow entry (Table.mem_erase hentry)⟩

/-- A value is put under its own name. -/
theorem putValue (h : n.WellNamed) (name : String) (data : ValueData) :
    (n.putValue name data).WellNamed := by
  obtain ⟨hn, hbelow⟩ := (wellNamed_iff n).mp h
  rw [wellNamed_iff]
  refine ⟨⟨hn.subKeys_ordered, hn.values_ordered.insert _ _, hn.subKeys_folded,
    fun entry hentry => ?_, hn.subKeys_single⟩, hbelow⟩
  rcases Table.mem_insert hentry with rfl | hold
  · rfl
  · exact hn.values_folded entry hold

/-- Any value may be taken away. -/
theorem dropValue (h : n.WellNamed) (name : String) : (n.dropValue name).WellNamed := by
  obtain ⟨hn, hbelow⟩ := (wellNamed_iff n).mp h
  rw [wellNamed_iff]
  exact ⟨⟨hn.subKeys_ordered, hn.values_ordered.erase _, hn.subKeys_folded,
    fun entry hentry => hn.values_folded entry (Table.mem_erase hentry), hn.subKeys_single⟩, hbelow⟩

/-- A child may be moved to a single name, which it has then. -/
theorem moveChild {new old : String} (h : n.WellNamed) (hchild : n.child? old = some child)
    (hsingle : new ≠ "" ∧ Path.separator ∉ new.toList) :
    (moveChild now new old child n).WellNamed := by
  have hrenamed : ({ child with name := new, lastWrite := now } : Node).WellNamed :=
    (h.of_child? hchild).1.of_tables rfl rfl
  rw [Node.moveChild]
  exact ((h.dropChild old).putChild hrenamed rfl hsingle).touch now

/-- A key in a well-named tree is the first of a well-named one. -/
theorem find? (h : n.WellNamed) (hfound : n.find? names = some found) : found.WellNamed := by
  induction names generalizing n with
  | nil =>
    rw [Node.find?, Option.some.injEq] at hfound
    exact hfound ▸ h
  | cons name rest ih =>
    rw [find?_cons] at hfound
    cases hchild : n.child? name with
    | none => exact absurd hfound (by simp [hchild])
    | some child =>
      rw [hchild, Option.bind_some] at hfound
      exact ih (h.of_child? hchild).1 hfound

/-- A graft under the old name keeps a tree well named, and does not rename it. -/
theorem graft (h : n.WellNamed) (hfound : n.find? names = some found) (hm : m.WellNamed)
    (hname : m.name = found.name) :
    (graft m names n).WellNamed ∧ (Node.graft m names n).name = n.name := by
  -- The induction is on the way down: at each key the child is replaced by one of the same name.
  induction names generalizing n with
  | nil =>
    rw [Node.find?, Option.some.injEq] at hfound
    rw [hfound]
    exact ⟨hm, hname⟩
  | cons name rest ih =>
    rw [find?_cons] at hfound
    cases hchild : n.child? name with
    | none => exact absurd hfound (by simp [hchild])
    | some child =>
      rw [hchild, Option.bind_some] at hfound
      obtain ⟨hwell, hfold, hsingle⟩ := h.of_child? hchild
      obtain ⟨hgraft, hkept⟩ := ih hwell hfound
      simp only [Node.graft, hchild]
      rw [← hkept] at hfold hsingle
      exact ⟨h.putChild hgraft hfold hsingle, rfl⟩

/-- Creating keys under single names keeps a tree well named, and does not rename it. -/
theorem create (now : Time) (h : n.WellNamed)
    (hnames : ∀ name ∈ names, name ≠ "" ∧ Path.separator ∉ name.toList) :
    (create now names n).WellNamed ∧ (Node.create now names n).name = n.name := by
  induction names generalizing n with
  | nil => exact ⟨h, rfl⟩
  | cons name rest ih =>
    have hrest := fun other hother => hnames other (List.mem_cons_of_mem _ hother)
    rw [Node.create]
    refine ⟨?_, rfl⟩
    cases hchild : n.child? name with
    | none =>
      -- The new key is under its own name.
      obtain ⟨hnew, hkept⟩ := ih (wellNamed_empty name now) hrest
      refine h.putChild hnew (by rw [Option.getD_none, hkept]; rfl) ?_
      rw [Option.getD_none, hkept]
      exact hnames name List.mem_cons_self
    -- The key that is there keeps its name, and so its place.
    | some child =>
      obtain ⟨hwell, hfold, hsingle⟩ := h.of_child? hchild
      obtain ⟨hcreated, hkept⟩ := ih hwell hrest
      rw [← hkept] at hfold hsingle
      exact h.putChild hcreated hfold hsingle

end WellNamed

end Node

/-! ## The five trees -/

/-- The five trees are well named, and each root key has the name that is its own. -/
def Hives.WellNamed (h : Hives) : Prop :=
  ∀ root, (h.get root).WellNamed ∧ (h.get root).name = root.name

namespace Hives

variable {h h' : Hives} {root : RootKey} {names : List String} {missing : NativeError}

/-- Empty trees are well named. -/
theorem wellNamed_empty (now : Time) : (empty now).WellNamed := by
  intro root
  cases root <;> exact ⟨Node.wellNamed_empty _ now, rfl⟩

/-- A tree may be replaced by any well-named one of the same name. -/
theorem WellNamed.set {n : Node} (hwell : h.WellNamed) (hn : n.WellNamed)
    (hname : n.name = root.name) : (h.set root n).WellNamed := by
  intro other
  rw [get_set]
  by_cases hroot : root = other
  · rw [if_pos hroot, ← hroot]
    exact ⟨hn, hname⟩
  · rw [if_neg hroot]
    exact hwell other

/-- A key may be changed into any well-named one of the same name. -/
theorem WellNamed.update {f : Node → Except NativeError Node} (hwell : h.WellNamed)
    (hf : ∀ n m, n.WellNamed → f n = .ok m → m.WellNamed ∧ m.name = n.name)
    (hok : h.update root names missing f = .ok h') : h'.WellNamed := by
  obtain ⟨found, m, hfound, hm, rfl⟩ := update_eq_ok.mp hok
  obtain ⟨hroot, hname⟩ := hwell root
  obtain ⟨hchanged, hkept⟩ := hf found m (hroot.find? hfound) hm
  obtain ⟨hgraft, hrootKept⟩ := hroot.graft hfound hchanged hkept
  exact hwell.set hgraft (hrootKept.trans hname)

/-- The key above a location may be changed into any well-named one of the same name. -/
theorem WellNamed.updateAbove {l : Location} {f : String → Node → Except NativeError Node}
    (hwell : h.WellNamed)
    (hf : ∀ name n m, n.WellNamed → f name n = .ok m → m.WellNamed ∧ m.name = n.name)
    (hok : h.updateAbove l f = .ok h') : h'.WellNamed := by
  rw [Hives.updateAbove] at hok
  cases hname : l.path.name? with
  | none =>
    rw [hname] at hok
    exact absurd hok (by simp)
  | some name =>
    rw [hname] at hok
    exact hwell.update (hf name) hok

end Hives

/-! ## Changes -/

namespace Mutation

/-- The location that a change is about. -/
def target : Mutation → Location
  | createKey l => l
  | deleteKey l => l
  | renameKey l _ => l
  | setValue l _ _ => l
  | deleteValue l _ => l

/-- A change that creates keys under single names only. -/
def Sound : Mutation → Prop
  | createKey l => l.path.Sound
  | _ => True

variable {m : Mutation} {now : Time} {h h' : Hives}

/-- A change that creates keys under single names only keeps trees well named. -/
theorem Sound.apply (hm : m.Sound) (hwell : h.WellNamed) (hok : m.apply now h = .ok h') :
    h'.WellNamed := by
  cases m with
  | createKey l =>
    rw [Mutation.apply, Except.ok.injEq] at hok
    obtain ⟨hroot, hname⟩ := hwell l.root
    obtain ⟨hcreated, hkept⟩ := hroot.create now hm
    rw [← hok]
    exact hwell.set hcreated (hkept.trans hname)
  | deleteKey l =>
    refine hwell.updateAbove (fun name n m hn hremove => ?_) hok
    obtain ⟨child, -, -, rfl⟩ := Node.removeLeaf_eq_ok.mp hremove
    exact ⟨(hn.dropChild name).touch now, rfl⟩
  | renameKey l newName =>
    rw [Mutation.apply] at hok
    by_cases hsingle : isSingleName newName = true
    · -- Only single names are given to keys.
      rw [if_pos hsingle] at hok
      refine hwell.updateAbove (fun old n m hn hrename => ?_) hok
      obtain ⟨-, child, hchild, rfl⟩ := Node.renameChild_eq_ok.mp hrename
      exact ⟨hn.moveChild hchild ((isSingleName_iff newName).mp hsingle), rfl⟩
    · rw [if_neg hsingle] at hok
      exact absurd hok (by simp)
  | setValue l name data =>
    refine hwell.update (fun n m hn hput => ?_) hok
    rw [Except.ok.injEq] at hput
    rw [← hput]
    exact ⟨(hn.putValue name data).touch now, rfl⟩
  | deleteValue l name =>
    refine hwell.update (fun n m hn hremove => ?_) hok
    obtain ⟨-, rfl⟩ := Node.removeValue_eq_ok.mp hremove
    exact ⟨(hn.dropValue name).touch now, rfl⟩

end Mutation

end TransactionalRegistry
