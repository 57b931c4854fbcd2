import TransactionalRegistry.Proofs.Clones

/-!
# The clones are counted

The number that the clones of a transaction share is the number of clones that there are of it: held
by hand, on the ambient stack, and kept by the policies whose work is being done. Whatever is done,
it either goes through a clone that there is, and may leave other clones of that transaction behind,
or it goes through none, or it creates a transaction.

As long as the count is right, the shared state says whether the native handle is closed. So the
calls through the clones of each transaction are the one that has created it and then some traffic
on its handle, and there is no way to reach a transaction whose last clone is gone.

## Main definitions

* `Transaction.Alive`, `Transaction.clones`: The clones that there are of a transaction.
* `Sound`: Clones are counted, and the calls so far through them are some traffic.

## Theorems

* `Sound.handleClosed`: The shared state says whether the native handle is closed.
* `Sound.advance`: Something is done through a clone.
* `Sound.aside`: Something is done through no clone.
* `Sound.birth`: A transaction is created.
-/

namespace TransactionalRegistry

variable {W : Type}

/-! ## Clones -/

namespace Transaction

/-- There is a clone of the transaction: held by hand, on the ambient stack, or kept by a policy. -/
def Alive (t : Transaction) (kept : List Transaction) (ctx : Context (Recorded (Hands W))) : Prop :=
  t ∈ ctx.held ∨ some t ∈ ctx.ambient ∨ t ∈ kept

/-- How many clones there are of a transaction. -/
def clones (t : Transaction) (kept : List Transaction) (ctx : Context (Recorded (Hands W))) : Nat :=
  ctx.held.count t + ctx.ambient.count (some t) + kept.count t

variable {t : Transaction} {kept : List Transaction} {ctx : Context (Recorded (Hands W))}

/-- There is a clone of a transaction just if the number of its clones is positive. -/
theorem alive_iff_clones : t.Alive kept ctx ↔ 0 < t.clones kept ctx := by
  have hheld : t ∈ ctx.held ↔ 0 < ctx.held.count t := List.count_pos_iff.symm
  have hambient : some t ∈ ctx.ambient ↔ 0 < ctx.ambient.count (some t) := List.count_pos_iff.symm
  have hkept : t ∈ kept ↔ 0 < kept.count t := List.count_pos_iff.symm
  unfold Alive clones
  rw [hheld, hambient, hkept]
  omega

end Transaction

/-! ## Sound contexts -/

/-- The transactions `born` were created so far, in this order. Their clones are counted, and the
    calls so far through each of them are the one that has created it and then some traffic on its
    handle. -/
structure Sound (born : List Transaction) (past : List Use) (kept : List Transaction)
    (ctx : Context (Recorded (Hands W))) : Prop where
  numbers : ∀ (i : Nat) (t : Transaction), born[i]? = some t → t.id = i
  length : ctx.shared.length = born.length
  alive : ∀ t, t.Alive kept ctx → t ∈ born
  clones : ∀ t ∈ born, (ctx.sharedOf t).clones = t.clones kept ctx
  story : ∀ t ∈ born, ∃ millis description calls,
    t.story past = ⟨.createTransaction millis description, .ok t.handle⟩ :: calls ∧
      Traffic t.handle false calls (ctx.handleClosed t)
  unborn : ∀ t, t ∉ born → t.story past = []
  calls : past.map (·.record) = ctx.world.calls
  detached : ∀ u ∈ past, u.user = none → u.record.Detached

namespace Sound

variable {born : List Transaction} {past : List Use} {kept kept' : List Transaction}
  {ctx ctx' : Context (Recorded (Hands W))} {t u : Transaction} {calls : List CallRecord}

/-- Nothing was created and nothing was done. -/
theorem start (world : W) : Sound [] [] [] (Context.ofWorld ⟨⟨world, []⟩, []⟩) where
  numbers _ _ h := absurd h (by simp)
  length := rfl
  alive t h := by
    rcases h with h | h | h
    · exact absurd h List.not_mem_nil
    · exact absurd h List.not_mem_nil
    · exact h
  clones _ h := absurd h List.not_mem_nil
  story _ h := absurd h List.not_mem_nil
  unborn _ _ := rfl
  calls := rfl
  detached _ h := absurd h List.not_mem_nil

/-- The number of a transaction is that of a state that is shared. -/
theorem id_lt (h : Sound born past kept ctx) (ht : t ∈ born) : t.id < ctx.shared.length := by
  rcases List.getElem?_of_mem ht with ⟨i, hi⟩
  rw [h.numbers i t hi, h.length]
  exact (List.getElem?_eq_some_iff.mp hi).1

/-- No two transactions have the same number. -/
theorem id_inj (h : Sound born past kept ctx) (ht : t ∈ born) (hu : u ∈ born) (hid : t.id = u.id) :
    t = u := by
  rcases List.getElem?_of_mem ht with ⟨i, hi⟩
  rcases List.getElem?_of_mem hu with ⟨j, hj⟩
  rw [h.numbers i t hi, h.numbers j u hj] at hid
  rw [hid, hj] at hi
  exact (Option.some.inj hi).symm

/-- The next transaction gets the next number. -/
theorem numbers_append (h : Sound born past kept ctx) (hid : t.id = born.length) :
    ∀ (i : Nat) (u : Transaction), (born ++ [t])[i]? = some u → u.id = i := by
  intro i u hu
  by_cases hi : i < born.length
  · -- The next number is the first one that was not given out.
    rw [List.getElem?_append_left hi] at hu
    exact h.numbers i u hu
  · rw [List.getElem?_append_right (Nat.le_of_not_lt hi)] at hu
    rcases List.getElem?_eq_some_iff.mp hu with ⟨hlt, hu⟩
    have hlast : i = born.length := by
      rw [List.length_singleton] at hlt
      omega
    rw [List.getElem_singleton] at hu
    rw [← hu, hid, hlast]

/-- The native handle of a transaction is closed if the transaction is, while there are clones. -/
theorem handleClosed (h : Sound born past kept ctx) (ht : t.Alive kept ctx) :
    ctx.handleClosed t = (ctx.sharedOf t).closed := by
  refine Context.handleClosed_of_clones ?_
  rw [h.clones t (h.alive t ht)]
  exact Transaction.alive_iff_clones.mp ht

/-- The calls that are made are put down after those made so far. -/
theorem calls_append (h : Sound born past kept ctx)
    (hcalls : ctx'.world.calls = ctx.world.calls ++ calls) (user : Option Transaction) :
    (past ++ calls.map (Use.mk user)).map (·.record) = ctx'.world.calls := by
  rw [List.map_append, h.calls, hcalls, List.map_map]
  exact congrArg (ctx.world.calls ++ ·) (List.map_id calls)

/-- A call that goes through no transaction is detached from all of them. -/
theorem detached_append (h : Sound born past kept ctx) {user : Option Transaction}
    (hdetached : user = none → ∀ r ∈ calls, r.Detached) :
    ∀ u ∈ past ++ calls.map (Use.mk user), u.user = none → u.record.Detached := by
  intro u hu hnone
  rcases List.mem_append.mp hu with hu | hu
  · exact h.detached u hu hnone
  · rcases List.mem_map.mp hu with ⟨r, hr, rfl⟩
    exact hdetached hnone r hr

/-- Something is done through a transaction, and then there may be other clones of it. -/
theorem advance {g : Nat → Nat} (h : Sound born past kept ctx) (ht : t ∈ born)
    (hcalls : ctx'.world.calls = ctx.world.calls ++ calls)
    (hothers : ∀ id, id ≠ t.id → ctx'.shared[id]? = ctx.shared[id]?)
    (htraffic : Traffic t.handle (ctx.handleClosed t) calls (ctx'.handleClosed t))
    (htally : ctx'.tally = ctx.tally.modify t.id g)
    (hclones : ∀ u : Transaction, u.clones kept' ctx'
      = if t = u then g (u.clones kept ctx) else u.clones kept ctx) :
    Sound born (past ++ ctx.made (some t) ctx') kept' ctx' := by
  rw [Context.made_of_calls hcalls]
  -- The number of a transaction is its place, so another transaction has another state.
  have hsame : ∀ u ∈ born, t ≠ u → ctx'.sharedOf u = ctx.sharedOf u := by
    intro u hu htu
    have hid : u.id ≠ t.id := fun hid => htu (h.id_inj ht hu hid.symm)
    rw [Context.sharedOf, hothers u.id hid, ← Context.sharedOf]
  have hother : ∀ u, t ≠ u → u.story (past ++ calls.map (Use.mk (some t))) = u.story past :=
    fun u htu => Transaction.story_other (by simpa using htu) past calls
  refine {
    numbers := h.numbers
    length := (Context.length_of_tally htally).trans h.length
    alive := ?alive
    clones := ?clones
    story := ?story
    unborn := fun u hu => (hother u (fun heq => hu (heq ▸ ht))).trans (h.unborn u hu)
    calls := h.calls_append hcalls (some t)
    detached := h.detached_append (fun hnone => absurd hnone (by simp)) }
  case alive =>
    -- A clone of another transaction is a clone that there was before.
    intro u hu
    rw [Transaction.alive_iff_clones, hclones] at hu
    by_cases htu : t = u
    · exact htu ▸ ht
    · rw [if_neg htu, ← Transaction.alive_iff_clones] at hu
      exact h.alive u hu
  case clones =>
    intro u hu
    -- Of this transaction the clones are counted as they change; those of the others stay as they
    -- are.
    rw [hclones]
    by_cases htu : t = u
    · subst htu
      rw [if_pos rfl, Context.clones_of_tally htally (h.id_lt ht), h.clones t ht]
    · rw [if_neg htu, hsame u hu htu, h.clones u hu]
  case story =>
    -- What was done is added to the story of this transaction, and to no other story.
    intro u hu
    rcases h.story u hu with ⟨millis, description, earlier, hstory, hearlier⟩
    by_cases htu : t = u
    · subst htu
      refine ⟨millis, description, earlier ++ calls, ?_, hearlier.trans htraffic⟩
      rw [Transaction.story_own, hstory, List.cons_append]
    · refine ⟨millis, description, earlier, (hother u htu).trans hstory, ?_⟩
      rw [Context.handleClosed_congr (hsame u hu htu)]
      exact hearlier

/-- Something is done through no clone. -/
theorem aside (h : Sound born past kept ctx)
    (hcalls : ctx'.world.calls = ctx.world.calls ++ calls) (hdetached : ∀ r ∈ calls, r.Detached)
    (hshared : ctx'.shared = ctx.shared)
    (hclones : ∀ u : Transaction, u.clones kept' ctx' = u.clones kept ctx) :
    Sound born (past ++ ctx.made none ctx') kept' ctx' := by
  rw [Context.made_of_calls hcalls]
  -- The state of every transaction stays as it is, and no story goes on.
  have hsame : ∀ u : Transaction, ctx'.sharedOf u = ctx.sharedOf u := by
    intro u
    rw [Context.sharedOf, hshared, ← Context.sharedOf]
  have hother : ∀ u : Transaction, u.story (past ++ calls.map (Use.mk none)) = u.story past :=
    fun u => Transaction.story_other (by simp) past calls
  refine {
    numbers := h.numbers
    length := (congrArg List.length hshared).trans h.length
    alive := ?alive
    clones := fun u hu => by rw [hsame, h.clones u hu, hclones]
    story := ?story
    unborn := fun u hu => (hother u).trans (h.unborn u hu)
    calls := h.calls_append hcalls none
    detached := h.detached_append (fun _ => hdetached) }
  case alive =>
    intro u hu
    rw [Transaction.alive_iff_clones, hclones, ← Transaction.alive_iff_clones] at hu
    exact h.alive u hu
  case story =>
    intro u hu
    rcases h.story u hu with ⟨millis, description, earlier, hstory, hearlier⟩
    refine ⟨millis, description, earlier, (hother u).trans hstory, ?_⟩
    rw [Context.handleClosed_congr (hsame u)]
    exact hearlier

/-- Something is done that has to do with no transaction at all. -/
theorem beside (h : Sound born past kept ctx) (hbeside : ctx.Beside ctx') :
    Sound born (past ++ ctx.made none ctx') kept ctx' := by
  rcases hbeside.calls with ⟨calls, hcalls, hdetached⟩
  refine h.aside hcalls hdetached hbeside.shared (fun u => ?_)
  rw [Transaction.clones, hbeside.held, hbeside.ambient, ← Transaction.clones]

/-- No call is made, and no clone taken or given up. -/
theorem quiet (h : Sound born past kept ctx) (user : Option Transaction)
    (hcalls : ctx'.world.calls = ctx.world.calls) (hshared : ctx'.shared = ctx.shared)
    (hclones : ∀ u : Transaction, u.clones kept' ctx' = u.clones kept ctx) :
    Sound born (past ++ ctx.made user ctx') kept' ctx' := by
  have hnone : ctx'.world.calls = ctx.world.calls ++ [] := hcalls.trans (List.append_nil _).symm
  have hdone := h.aside hnone (fun _ hr => absurd hr List.not_mem_nil) hshared hclones
  rw [Context.made_of_calls hnone] at hdone ⊢
  exact hdone

/-- A transaction is created. -/
theorem birth (h : Sound born past kept ctx) {millis : UInt32} {description : Option String}
    {shared : Shared} (hid : t.id = ctx.shared.length)
    (hcalls : ctx'.world.calls
      = ctx.world.calls ++ [⟨.createTransaction millis description, .ok t.handle⟩])
    (hshared : ctx'.shared = ctx.shared ++ [shared]) (hopen : shared.closed = false)
    (hlive : 0 < shared.clones)
    (hclones : ∀ u : Transaction, u.clones kept' ctx'
      = u.clones kept ctx + if t = u then shared.clones else 0) :
    Sound (born ++ [t]) (past ++ ctx.made (some t) ctx') kept' ctx' := by
  rw [Context.made_of_calls hcalls]
  -- All numbers that were given out so far are smaller, so there is no clone of it anywhere.
  have hnew : t ∉ born := fun ht => Nat.ne_of_lt (h.id_lt ht) hid
  -- Nobody can have held a clone of it, for all that are held are of transactions created before.
  have hnone : t.clones kept ctx = 0 := by
    refine Nat.eq_zero_of_not_pos (fun hpos => hnew ?_)
    exact h.alive t (Transaction.alive_iff_clones.mpr hpos)
  -- Its state is the last of those that are shared, and the others keep theirs.
  have hsharedOf : ctx'.sharedOf t = shared := by
    refine Context.sharedOf_of_found ?_
    rw [hshared, hid, List.getElem?_append_right (Nat.le_refl _), Nat.sub_self]
    rfl
  -- The states of those that were created before stand where they stood.
  have hearlier : ∀ u ∈ born, ctx'.sharedOf u = ctx.sharedOf u := by
    intro u hu
    rw [Context.sharedOf, hshared, List.getElem?_append_left (h.id_lt hu), ← Context.sharedOf]
  have hother : ∀ u, t ≠ u → ∀ calls : List CallRecord,
      u.story (past ++ calls.map (Use.mk (some t))) = u.story past :=
    fun u htu calls => Transaction.story_other (by simpa using htu) past calls
  refine {
    numbers := h.numbers_append (hid.trans h.length)
    length := by rw [hshared, List.length_append, List.length_append, h.length]; rfl
    alive := ?alive
    clones := ?clones
    story := ?story
    unborn := ?unborn
    calls := h.calls_append hcalls (some t)
    detached := h.detached_append (fun hnone => absurd hnone (by simp)) }
  case alive =>
    -- A clone is one of the new transaction, or there was one before.
    intro u hu
    rw [Transaction.alive_iff_clones, hclones] at hu
    by_cases htu : t = u
    · exact List.mem_append_right _ (by rw [htu]; exact List.mem_singleton_self u)
    · rw [if_neg htu, Nat.add_zero, ← Transaction.alive_iff_clones] at hu
      exact List.mem_append_left _ (h.alive u hu)
  case clones =>
    -- The clones of the new transaction are those that it was created with.
    intro u hu
    rw [hclones]
    rcases List.mem_append.mp hu with hu | hu
    · have htu : t ≠ u := fun heq => hnew (heq ▸ hu)
      rw [if_neg htu, Nat.add_zero, hearlier u hu, h.clones u hu]
    · rw [List.mem_singleton.mp hu, if_pos rfl, hsharedOf, hnone, Nat.zero_add]
  case story =>
    intro u hu
    rcases List.mem_append.mp hu with hu | hu
    · have htu : t ≠ u := fun heq => hnew (heq ▸ hu)
      rcases h.story u hu with ⟨millis', description', calls, hstory, htraffic⟩
      refine ⟨millis', description', calls, (hother u htu _).trans hstory, ?_⟩
      rw [Context.handleClosed_congr (hearlier u hu)]
      exact htraffic
    · -- The story of the new transaction begins with its creation, and nothing has followed yet.
      rw [List.mem_singleton.mp hu]
      refine ⟨millis, description, [], by rw [t.story_own, h.unborn t hnew]; rfl, ?_⟩
      have hstill : ctx'.handleClosed t = false := by
        rw [Context.handleClosed, hsharedOf, hopen, beq_false_of_ne (Nat.ne_of_gt hlive)]
        rfl
      rw [hstill]
      exact .idle _ _
  case unborn =>
    -- Whoever is not among those created is not the new one either.
    intro u hu
    have htu : t ≠ u :=
      fun heq => hu (List.mem_append_right _ (by rw [heq]; exact List.mem_singleton_self u))
    exact (hother u htu _).trans (h.unborn u (fun hmem => hu (List.mem_append_left _ hmem)))

end Sound

end TransactionalRegistry
