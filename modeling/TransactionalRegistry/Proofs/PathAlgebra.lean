import TransactionalRegistry.Proofs.PathTexts

/-!
# Laws of paths

Reading texts, moving between paths and comparing them obey a few laws. Joining is reading on: a
separator between two texts is a join between their paths. Going up undoes joining a single name,
and joining the last name undoes going up. Lying beneath orders the paths, up to letter case, and a
path lies beneath another exactly if it can be reached from it by a join. For that last law a text
has to be found, and the text of the names that remain is one.

## Theorems

* `Path.ofText_append`, `Path.join_join`: A separator in a text is a join.
* `Path.parent?_join_name`, `Path.join_parent?`: Going up and joining a name undo each other.
* `Path.startsWith_iff_join`: What lies beneath a path is reached from it by a join.
* `path_laws`: All of them together, for the paths that come about.
-/

namespace TransactionalRegistry

namespace Path

variable {p q r : Path} {name : String}

theorem ofText_append (a b : String) : ofText (a ++ "\\" ++ b) = (ofText a).join b := by
  have hseparated : (a ++ "\\" ++ b).toList = a.toList ++ separator :: b.toList := by
    rw [String.toList_append, String.toList_append, List.append_assoc]
    rfl
  rw [ofText, hseparated, namesIn_append, List.map_append]
  rfl

theorem join_join (p : Path) (a b : String) : (p.join a).join b = p.join (a ++ "\\" ++ b) := by
  rw [join, join, join, ofText_append, List.append_assoc]
  rfl

/-- A path that is not the root key's is its last name joined to the path above. -/
theorem parent?_join_name (h : p.Sound) (hroot : p.isRoot = false) :
    ∃ parent name, p.parent? = some parent ∧ p.name? = some name ∧ parent.join name = p := by
  have hne : p.names ≠ [] := by
    rw [isRoot, List.isEmpty_eq_false_iff] at hroot
    exact hroot
  have hlast := h _ (List.getLast_mem hne)
  refine ⟨⟨p.names.dropLast⟩, p.names.getLast hne, ?_, List.getLast?_eq_getLast_of_ne_nil hne, ?_⟩
  · rw [parent?, if_neg (by rwa [List.isEmpty_iff])]
  · rw [join_single hlast, List.dropLast_append_getLast]

/-- Going up from a joined name leads back. -/
theorem join_parent? {n : String} (hsingle : ofText n = ⟨[name]⟩) (p : Path) :
    (p.join n).parent? = some p := by
  rw [join, hsingle, parent?, if_neg (by simp), List.dropLast_concat]

theorem startsWith_trans (hpq : p.startsWith q = true) (hqr : q.startsWith r = true) :
    p.startsWith r = true := by
  rw [startsWith_iff] at *
  exact hqr.trans hpq

theorem startsWith_antisymm_iff (p q : Path) :
    (p.startsWith q = true ∧ q.startsWith p = true) ↔ p.same q = true := by
  rw [startsWith_iff, startsWith_iff, same_iff]
  constructor
  · rintro ⟨hqp, hpq⟩
    exact hpq.eq_of_length_le hqp.length_le
  · intro hsame
    exact ⟨hsame ▸ List.prefix_rfl, hsame ▸ List.prefix_rfl⟩

/-- The names of a path from the `n`-th on, as text. -/
theorem ofText_remaining (h : p.Sound) (n : Nat) :
    ofText (text ⟨p.names.drop n⟩) = ⟨p.names.drop n⟩ :=
  ofText_text fun name hname => h name (List.mem_of_mem_drop hname)

/-- A path lies beneath another exactly if it can be reached from there. -/
theorem startsWith_iff_join (h : p.Sound) (q : Path) :
    p.startsWith q = true ↔ ∃ relative, p.same (q.join relative) = true := by
  simp only [startsWith_iff, same_iff, join]
  constructor
  · rintro ⟨more, hmore⟩
    refine ⟨text ⟨p.names.drop q.names.length⟩, ?_⟩
    have hrest : more = (p.names.drop q.names.length).map Text.fold := by
      rw [List.map_drop, ← folded, ← hmore, List.drop_left' (by rw [folded, List.length_map])]
    rw [ofText_remaining h, ← hmore, hrest, folded, folded, List.map_append]
  · rintro ⟨relative, hsame⟩
    rw [hsame, folded, folded, List.map_append]
    exact List.prefix_append _ _

end Path

/-- The laws of paths: for reading, for going up and down, and for lying beneath. -/
theorem path_laws :
    (∀ a b, Path.ofText (a ++ "\\" ++ b) = (Path.ofText a).join b) ∧
    (∀ (p : Path) (a b), (p.join a).join b = p.join (a ++ "\\" ++ b)) ∧
    (∀ p : Path, p.Made → p.isRoot = false →
      ∃ parent name, p.parent? = some parent ∧ p.name? = some name ∧ parent.join name = p) ∧
    (∀ (p : Path) (n name : String), Path.ofText n = ⟨[name]⟩ → (p.join n).parent? = some p) ∧
    (∀ p : Path, p.startsWith p = true) ∧
    (∀ p q r : Path, p.startsWith q = true → q.startsWith r = true → p.startsWith r = true) ∧
    (∀ p q : Path, (p.startsWith q = true ∧ q.startsWith p = true) ↔ p.same q = true) ∧
    ∀ p q : Path, p.Made →
      (p.startsWith q = true ↔ ∃ relative, p.same (q.join relative) = true) := by
  refine ⟨Path.ofText_append, Path.join_join, fun p hp => Path.parent?_join_name hp.sound,
    fun p n name hsingle => Path.join_parent? hsingle p,
    fun p => (Path.startsWith_iff p p).mpr List.prefix_rfl,
    fun p q r => Path.startsWith_trans, Path.startsWith_antisymm_iff,
    fun p q hp => Path.startsWith_iff_join hp.sound q⟩

/-- A key of two names, its parent, and the way to it from its parent in another letter case. -/
theorem path_laws_below_notes :
    Path.Made ⟨["Notes", "Old"]⟩ ∧ Path.isRoot ⟨["Notes", "Old"]⟩ = false ∧
      (∃ parent name, Path.parent? ⟨["Notes", "Old"]⟩ = some parent ∧
        Path.name? ⟨["Notes", "Old"]⟩ = some name ∧ parent.join name = ⟨["Notes", "Old"]⟩) ∧
      Path.ofText "\\Old" = ⟨["Old"]⟩ ∧
      (Path.join ⟨["Notes"]⟩ "\\Old").parent? = some ⟨["Notes"]⟩ ∧
      Path.startsWith ⟨["Notes", "Old"]⟩ ⟨["NOTES"]⟩ = true ∧
      Path.startsWith ⟨["NOTES"]⟩ ⟨[]⟩ = true ∧ Path.startsWith ⟨["Notes", "Old"]⟩ ⟨[]⟩ = true ∧
      ∃ relative, Path.same ⟨["Notes", "Old"]⟩ (Path.join ⟨["NOTES"]⟩ relative) = true := by
  obtain ⟨-, -, hname, hup, -, htrans, -, hjoin⟩ := path_laws
  have hmade : Path.Made ⟨["Notes", "Old"]⟩ := .read "Notes\\Old"
  have hbeneath : Path.startsWith ⟨["Notes", "Old"]⟩ ⟨["NOTES"]⟩ = true := by decide
  have habove : Path.startsWith ⟨["NOTES"]⟩ ⟨[]⟩ = true := rfl
  exact ⟨hmade, rfl, hname _ hmade rfl, rfl, hup _ _ _ rfl, hbeneath, habove,
    htrans _ _ _ hbeneath habove, (hjoin _ _ hmade).mp hbeneath⟩

end TransactionalRegistry
