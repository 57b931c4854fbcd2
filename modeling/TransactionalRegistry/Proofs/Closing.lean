import Mathlib.Data.List.Perm.Basic
import TransactionalRegistry.Proofs.Counting

/-!
# Every transaction is closed once

A transaction is created by one call and closed by one call, and that call is the last one on its
handle. Somebody may close it on request, its policy closes it when the work is over, and if nobody
has closed it, giving up the last clone does. Clones are held by hand, lie on the ambient stack and
are kept by policies all at once, and may be given up in any order.

What carries the proof is the count of the clones. Every step keeps it, and so does every policy,
when it comes to its work and when it goes on after it.

## Main definitions

* `Transaction.OpenIn`, `Transaction.ClosedIn`: What became of a transaction.
* `ClosedOnce`: What is to be known about the calls so far.

## Theorems

* `Sound.served`, `Sound.take`, `Sound.drop`, `Sound.create`: What is done with clones.
* `CloneStep.sound`: Every step keeps the count.
* `Policy.sound_entrance`, `Policy.sound_exit`, `Policy.sound_unentered`: Every policy does.
* `Sound.closedOnce`: The count tells all that is to be known.
* `transactions_are_closed_once`: It is so at all times.
-/

namespace TransactionalRegistry

variable {W ε α : Type}

/-! ## Steps -/

section

variable [Native W] {born : List Transaction} {past : List Use} {kept : List Transaction}
  {ctx ctx' : Context (Recorded (Hands W))} {t : Transaction}

/-- A manager creates a transaction by one call, or it does not create one. -/
theorem Manager.createTransaction_goes (manager : Manager) (options : List TransactionOption)
    (ctx : Context (Recorded (Hands W))) :
    Ends (manager.createTransaction options : Act (Recorded (Hands W)) _ _) ctx
      (fun t ctx' => ∃ millis description,
        Transcript ctx.world [⟨.createTransaction millis description, .ok t.handle⟩] ctx'.world ∧
          ctx'.ambient = ctx.ambient ∧ t.id = ctx.shared.length ∧
          ctx'.shared = ctx.shared ++ [Shared.fresh])
      (fun _ => ctx.Beside) := by
  have hsettings : Ends (Act.ofExcept (manager.defaults.withOptions options) :
      Act (Recorded (Hands W)) _ _) ctx (fun _ ctx' => ctx' = ctx) (fun _ => ctx.Beside) := by
    cases manager.defaults.withOptions options with
    | ok settings => exact ends_pure rfl
    -- Options that cannot be resolved are refused before any call.
    | error e => exact ends_throw (.refl ctx)
  refine hsettings.bind ?_ (fun _ _ h => h)
  rintro settings _ rfl
  refine (Policy.create_goes settings _).mono ?_ ?_
  · rintro t ctx' ⟨millis, _, hcreated⟩
    exact ⟨millis, _, hcreated⟩
  · rintro _ ctx' ⟨e, _, ⟨_, _, rfl⟩ | ⟨millis, error, _, _, hworld, hambient, hshared⟩⟩
    · -- Either the description was refused before the call, or the call has failed.
      exact .refl _
    · refine ⟨⟨_, hworld.recorded, ?_⟩, hshared, hambient, hworld.held⟩
      exact List.forall_mem_singleton.mpr .uncreated

/-- All that matters of a step is what it is about and where it ends. -/
theorem CloneStep.sound_of {step : CloneStep W} {user : Option Transaction}
    (habout : step.about ctx = user) (hend : endState step.act ctx = ctx')
    (h : Sound born (past ++ ctx.made user ctx') kept ctx') :
    ∃ born', Sound born' (past ++ step.uses ctx) kept (endState step.act ctx) := by
  refine ⟨born, ?_⟩
  rw [uses, habout, hend]
  exact h

namespace Sound

/-- A clone is used, and stays. -/
theorem served (h : Sound born past kept ctx) (ht : t.Alive kept ctx) (hserves : ctx.Serves t ctx')
    (htally : ctx'.tally = ctx.tally) : Sound born (past ++ ctx.made (some t) ctx') kept ctx' := by
  rcases hserves with ⟨calls, hgoes, htraffic⟩
  have hid := h.id_lt (h.alive t ht)
  have hsame : ctx'.tally = ctx.tally.modify t.id id := by rw [List.modify_id, htally]
  -- The clone is still there, so the shared state says whether the handle is closed, as before.
  have hlive : 0 < (ctx'.sharedOf t).clones := by
    rw [Context.clones_of_tally hsame hid, h.clones t (h.alive t ht)]
    exact Transaction.alive_iff_clones.mp ht
  rw [← h.handleClosed ht, ← Context.handleClosed_of_clones hlive] at htraffic
  refine h.advance (h.alive t ht) hgoes.world.recorded hgoes.shared htraffic hsame (fun u => ?_)
  rw [Transaction.clones, hgoes.ambient, Context.held, hgoes.world.held, ← Context.held,
    ← Transaction.clones]
  exact (ite_self _).symm

omit [Native W] in
/-- One more clone is taken, and held. -/
theorem take (h : Sound born past kept ctx) (ht : t.Alive kept ctx) :
    Sound born
      (past ++ ctx.made (some t) (endState (CloneStep.take t : Act _ Empty Unit) ctx)) kept
      (endState (CloneStep.take t : Act _ Empty Unit) ctx) := by
  have hid := h.id_lt (h.alive t ht)
  -- The count goes up by the one clone that was taken.
  have hshared : ((endState (CloneStep.take t : Act _ Empty Unit) ctx).sharedOf t)
      = { ctx.sharedOf t with clones := (ctx.sharedOf t).clones + 1 } :=
    Context.sharedOf_update hid
  have htally : (endState (CloneStep.take t : Act _ Empty Unit) ctx).tally
      = ctx.tally.modify t.id (· + 1) := Context.tally_update (fun _ => rfl) ctx t
  have hcalls : (endState (CloneStep.take t : Act _ Empty Unit) ctx).world.calls
      = ctx.world.calls ++ [] := (List.append_nil _).symm
  refine h.advance (h.alive t ht) hcalls
    (fun id hother => List.getElem?_modify_ne _ _ hother.symm) ?_ htally (fun u => ?_)
  · -- The handle was not closed, since a clone was there, and with one more it is not.
    have hstill : (endState (CloneStep.take t : Act _ Empty Unit) ctx).handleClosed t
        = ctx.handleClosed t := by
      rw [h.handleClosed ht, Context.handleClosed_of_clones, hshared]
      rw [hshared]
      exact Nat.succ_pos _
    rw [hstill]
    exact .idle _ _
  · change (ctx.held ++ [t]).count u + _ + _ = _
    rw [List.count_append, List.count_singleton]
    simp only [beq_iff_eq, Transaction.clones]
    by_cases htu : t = u
    · rw [if_pos htu, if_pos htu]
      change _ + ctx.ambient.count (some u) + _ = _
      omega
    · rw [if_neg htu, if_neg htu]
      rfl

/-- A clone that is held is given up. -/
theorem drop {slot : Nat} (h : Sound born past kept ctx) (hslot : ctx.held[slot]? = some t) :
    Sound born
      (past ++ ctx.made (some t)
        (endState (t.release : Act _ Empty Unit) (ctx.holding (ctx.held.eraseIdx slot)))) kept
      (endState (t.release : Act _ Empty Unit) (ctx.holding (ctx.held.eraseIdx slot))) := by
  have hheld : t ∈ ctx.held := List.mem_of_getElem? hslot
  have ht : t.Alive kept ctx := Or.inl hheld
  have hlive : 0 < (ctx.sharedOf t).clones := by
    rw [h.clones t (h.alive t ht)]
    exact Transaction.alive_iff_clones.mp ht
  -- One clone less is held of this transaction, and as many as before of all others.
  have hcount : ∀ u, ctx.held.count u
      = (ctx.held.eraseIdx slot).count u + if t = u then 1 else 0 := by
    intro u
    rcases List.getElem?_eq_some_iff.mp hslot with ⟨hlt, hat⟩
    rw [← (List.getElem_cons_eraseIdx_perm hlt).count_eq u, List.count_cons, hat]
    simp only [beq_iff_eq]
  have hserves : Ends (t.release : Act (Recorded (Hands W)) Empty Unit)
      (ctx.holding (ctx.held.eraseIdx slot)) _ _ := t.release_serves hlive
  -- The shared number goes down with the clone, and at the last one the handle is closed.
  have htally := (t.release_tally (ε := Empty)
    (ctx.holding (ctx.held.eraseIdx slot))).endState_total
  rcases hserves.endState_total with ⟨calls, hgoes, htraffic⟩
  refine h.advance (h.alive t ht) hgoes.world.recorded hgoes.shared ?_ htally (fun u => ?_)
  · rw [h.handleClosed ht]
    exact htraffic
  · rw [Transaction.clones, hgoes.ambient, Context.held, hgoes.world.held]
    change (ctx.held.eraseIdx slot).count u + ctx.ambient.count (some u) + _ = _
    have hu := hcount u
    by_cases htu : t = u
    · rw [if_pos htu] at hu ⊢
      rw [Transaction.clones]
      omega
    · rw [if_neg htu] at hu ⊢
      rw [Transaction.clones]
      omega

/-- A transaction is created, and held, or it cannot be created. -/
theorem create (h : Sound born past kept ctx) (manager : Manager)
    (options : List TransactionOption) : ∃ born', Sound born'
      (past ++ (CloneStep.create (W := W) manager options).uses ctx) kept
      (endState (CloneStep.create (W := W) manager options).act ctx) := by
  have hgoes := manager.createTransaction_goes options ctx
  cases hrun : (manager.createTransaction options : Act (Recorded (Hands W)) _ _) ctx with
  | ok t created =>
    rcases hgoes.ok hrun with ⟨millis, description, hworld, hambient, hid, hshared⟩
    have hend : endState (CloneStep.create (W := W) manager options).act ctx
        = created.holding (created.held ++ [t]) := by
      rw [CloneStep.act, endState, bind_of_ok hrun]
      rfl
    have habout : (CloneStep.create (W := W) manager options).about ctx = some t := by
      rw [CloneStep.about, outcome, hrun]
      rfl
    -- The new clone is held, and no other transaction has one more.
    have hclones : ∀ u : Transaction, u.clones kept (created.holding (created.held ++ [t]))
        = u.clones kept ctx + if t = u then 1 else 0 := by
      intro u
      change (created.held ++ [t]).count u + created.ambient.count (some u) + _ = _
      rw [hambient, Context.held, hworld.held, List.count_append, List.count_singleton]
      simp only [beq_iff_eq, Transaction.clones, Context.held]
      omega
    exact CloneStep.sound_of habout hend
      (h.birth hid hworld.recorded hshared rfl Nat.one_pos hclones)
  | error failure created =>
    have hend : endState (CloneStep.create (W := W) manager options).act ctx = created := by
      rw [CloneStep.act, endState, bind_of_error hrun]
    have habout : (CloneStep.create (W := W) manager options).about ctx = none := by
      rw [CloneStep.about, outcome, hrun]
      rfl
    exact CloneStep.sound_of habout hend (h.beside (hgoes.error hrun))

end Sound

/-- Every step keeps the count. -/
theorem CloneStep.sound (step : CloneStep W) (h : Sound born past kept ctx) :
    ∃ born', Sound born' (past ++ step.uses ctx) kept (endState step.act ctx) := by
  -- With an empty slot nothing is done.
  have hidle := h.beside (.refl ctx)
  -- What concerns no clone leaves all counts as they are.
  cases step with
  | log entry => exact sound_of rfl rfl (h.beside ((Context.Beside.refl ctx).logged entry))
  | operation l work => exact sound_of rfl rfl (h.beside (Context.beside_operation l work ctx))
  | happen change => exact sound_of rfl rfl (h.quiet none rfl rfl (fun _ => rfl))
  | create manager options => exact h.create manager options
  | current =>
    have hcurrent : (Ambient.current : Act (Recorded (Hands W)) Empty _) ctx
        = .ok (Ambient.top ctx.ambient) ctx := rfl
    cases htop : Ambient.top ctx.ambient with
    | none =>
      refine sound_of htop ?_ hidle
      rw [act, endState, bind_of_ok hcurrent, htop]
      rfl
    | some t =>
      -- The current transaction is the one of the top entry, of which a clone is on the stack.
      have hentry : some t ∈ ctx.ambient :=
        List.mem_of_mem_head? (Option.join_eq_some_iff.mp htop)
      refine sound_of htop ?_ (h.take (Or.inr (Or.inl hentry)))
      rw [act, endState, bind_of_ok hcurrent, htop]
      exact endState_bind_pure (take t) some ctx
  | clone slot =>
    cases hslot : ctx.held[slot]? with
    | none => exact sound_of hslot (atSlot_empty take hslot) hidle
    | some t =>
      have ht := List.mem_of_getElem? hslot
      exact sound_of hslot (atSlot_some take hslot) (h.take (Or.inl ht))
  | drop slot =>
    cases hslot : ctx.held[slot]? with
    | none => exact sound_of hslot (atSlot_empty _ hslot) hidle
    | some t => exact sound_of hslot (atSlot_some _ hslot) (h.drop hslot)
  | use slot what =>
    cases hslot : ctx.held[slot]? with
    | none => exact sound_of hslot (atSlot_empty _ hslot) hidle
    | some t =>
      have ht := List.mem_of_getElem? hslot
      have htally := (what.keeps_calm (Context.calm_tally ctx.tally) t).endState rfl
      exact sound_of hslot (atSlot_some _ hslot)
        (h.served (Or.inl ht) (what.serves t ctx) htally)

/-! ## Policies -/

namespace Policy

variable {policy : Policy} {start : Context (Recorded (Hands W))} {hides : Bool}
  {act : Act (Recorded (Hands W)) ε α}

/-- A policy that creates no transaction keeps no clone. -/
theorem keeps_of_plain (h : policy.RunsPlainly act ctx hides start) :
    policy.keeps ctx start = [] := by
  refine if_neg (fun hnew => ?_)
  rcases Propagation.place_of_plain h.course with ⟨hplace, _⟩ | ⟨t, hplace, _⟩
  · rw [hplace] at hnew
    exact absurd hnew (by simp)
  · rw [hplace] at hnew
    exact absurd hnew (by simp)

/-- A policy that has created one keeps a clone of it until its work is over. -/
theorem keeps_of_new {calls : List CallRecord}
    (h : policy.RunsInNew act ctx hides t start calls) : policy.keeps ctx start = [t] := by
  rw [keeps, if_pos (Propagation.place_of_creating h.course), h.ambient]
  rfl

/-- An entry that hides those below it is no clone. -/
theorem count_hidden (hides : Bool) (t : Transaction) (stack : List (Option Transaction)) :
    ((if hides then [none] else []) ++ stack).count (some t) = stack.count (some t) := by
  cases hides with
  | false => rfl
  | true => exact List.count_cons_of_ne (by simp)

/-- A policy comes to its work. -/
theorem sound_entrance (h : Sound born past kept ctx)
    (hentry : policy.entrance? ctx = some start) :
    ∃ born', Sound born' (past ++ ctx.made (Ambient.top start.ambient) start)
      (policy.keeps ctx start ++ kept) start := by
  have hprobe : (endState (probe : Act (Recorded (Hands W)) (Context _) Empty) start).ambient
      = start.ambient := rfl
  rcases around_entered hentry hprobe with ⟨hides, hplain⟩ | ⟨hides, t, calls, hnew⟩
  · -- Nothing was called yet, and at most an entry that is no clone was pushed.
    have hcalls := hplain.before.world.recorded
    rw [List.append_nil] at hcalls
    refine ⟨born, ?_⟩
    rw [keeps_of_plain hplain]
    refine h.quiet _ hcalls hplain.before.shared (fun u => ?_)
    rw [Transaction.clones, hplain.ambient, count_hidden, Context.held, hplain.before.world.held]
    rfl
  · rcases hnew.before with ⟨millis, _, hworld⟩
    have htop : Ambient.top start.ambient = some t := by rw [hnew.ambient]; rfl
    rw [keeps_of_new hnew, htop]
    refine ⟨_, h.birth hnew.id hworld.recorded hnew.shared rfl Nat.two_pos (fun u => ?_)⟩
    -- One of its two clones is on the stack, the other is kept by the policy.
    rw [Transaction.clones, hnew.ambient, Context.held, hworld.held, List.singleton_append,
      List.count_cons, List.count_cons, count_hidden]
    simp only [beq_iff_eq, Option.some.injEq, Transaction.clones, Context.held]
    split <;> omega

/-- A policy goes on after its work. -/
theorem sound_exit (h : Sound born past (policy.keeps ctx start ++ kept) (endState act start))
    (hentry : policy.entrance? ctx = some start)
    (hact : (endState act start).ambient = start.ambient)
    (hambient : (endState (policy.call act) ctx).ambient = ctx.ambient) :
    Sound born
      (past ++ (endState act start).made (Ambient.top start.ambient)
        (endState (policy.call act) ctx)) kept (endState (policy.call act) ctx) := by
  rcases around_entered hentry hact with ⟨hides, hplain⟩ | ⟨hides, t, calls, hnew⟩
  · -- Nothing is called after the work either, and the entry is taken off again.
    have hcalls := hplain.after.world.recorded
    rw [List.append_nil] at hcalls
    rw [keeps_of_plain hplain] at h
    refine h.quiet _ hcalls hplain.after.shared (fun u => ?_)
    rw [Transaction.clones, hambient, Context.held, hplain.after.world.held, Transaction.clones,
      hact, hplain.ambient, count_hidden]
    rfl
  · have htop : Ambient.top start.ambient = some t := by rw [hnew.ambient]; rfl
    have hstack := hact.trans hnew.ambient
    rw [keeps_of_new hnew] at h
    -- The clone that the policy keeps is there at the end of the work, whatever the work has done.
    have ht : t.Alive ([t] ++ kept) (endState act start) :=
      Or.inr (Or.inr (List.mem_append_left _ (List.mem_singleton_self t)))
    rcases hnew.closes hact with ⟨hclosed, htally⟩
    rw [List.modify_modify_eq] at htally
    rw [htop]
    refine h.advance (h.alive t ht) hnew.after.recorded hnew.others ?_ htally (fun u => ?_)
    · have hgone : (endState (policy.call act) ctx).handleClosed t = true := by
        rw [Context.handleClosed, hclosed]
        rfl
      rw [h.handleClosed ht, hgone]
      exact hnew.finalizes.traffic
    · -- It has given up the clone on the stack and the one that it has kept.
      rw [Transaction.clones, hambient, Context.held, hnew.after.held, Transaction.clones, hstack,
        List.singleton_append, List.count_cons, List.count_cons, count_hidden]
      simp only [beq_iff_eq, Option.some.injEq, Function.comp_apply, Context.held]
      split <;> omega

/-- A policy that does not come to its work. -/
theorem sound_unentered (h : Sound born past kept ctx) (hentry : policy.entrance? ctx = none)
    (hambient : (endState (policy.call act) ctx).ambient = ctx.ambient) :
    Sound born (past ++ ctx.made none (endState (policy.call act) ctx)) kept
      (endState (policy.call act) ctx) := by
  have hclones : (endState (policy.call act) ctx).held = ctx.held → ∀ u : Transaction,
      u.clones kept (endState (policy.call act) ctx) = u.clones kept ctx := by
    intro hheld u
    rw [Transaction.clones, hheld, hambient, ← Transaction.clones]
  -- The policy was refused at once, or it could not create its transaction.
  rcases around_unentered act hentry with ⟨e, hrefuses⟩ | ⟨hides, e, calls, huncreated⟩
  · have hcalls := hrefuses.after.world.recorded
    rw [List.append_nil] at hcalls
    exact h.quiet none hcalls hrefuses.after.shared (hclones hrefuses.after.world.held)
  · refine h.aside huncreated.world.recorded ?_ huncreated.shared (hclones huncreated.world.held)
    rcases huncreated.reason with ⟨_, _, rfl⟩ | ⟨millis, error, _, _, rfl⟩
    · exact fun _ hr => absurd hr List.not_mem_nil
    · exact List.forall_mem_singleton.mpr .uncreated

end Policy

/-! ## Closed once -/

namespace Transaction

/-- A transaction was created, and has only been used since then. -/
def OpenIn (t : Transaction) (past : List Use) : Prop :=
  ∃ millis description uses,
    t.story past = ⟨.createTransaction millis description, .ok t.handle⟩ :: uses ∧
      ∀ r ∈ uses, r.call.Uses t.handle

/-- A transaction was created, was used, and then it was closed, by the last call that was made
    through its clones. Whether that call has failed does not matter. -/
def ClosedIn (t : Transaction) (past : List Use) : Prop :=
  ∃ millis description uses result,
    t.story past = ⟨.createTransaction millis description, .ok t.handle⟩ ::
        (uses ++ [⟨.closeTransaction t.handle, result⟩]) ∧
      ∀ r ∈ uses, r.call.Uses t.handle

end Transaction

/-- A transaction is not both. -/
theorem Transaction.OpenIn.not_closedIn (h : t.OpenIn past) : ¬ t.ClosedIn past := by
  rintro ⟨_, _, uses', result, hstory', _⟩
  -- If it were closed, there would be a close among its uses.
  rcases h with ⟨_, _, uses, hstory, huses⟩
  rw [hstory, List.cons.injEq] at hstory'
  have hclose : (⟨.closeTransaction t.handle, result⟩ : CallRecord) ∈ uses := by
    rw [hstory'.2]
    exact List.mem_append_right _ (List.mem_singleton_self _)
  cases huses _ hclose

/-- What is to be known of the calls so far. They are all the calls that there are, and no handle of
    a transaction is used or closed by those that are made through no clone. Each transaction was
    created, used since then, and closed once at most, by the last call that was made through its
    clones. If there is no clone of it left, it was closed. If it was closed while there are clones
    of it, they answer without a call. -/
structure ClosedOnce (past : List Use) (kept : List Transaction)
    (ctx : Context (Recorded (Hands W))) : Prop where
  complete : past.map (·.record) = ctx.world.calls
  detached : ∀ u ∈ past, u.user = none → u.record.Detached
  once : ∀ t : Transaction, t.story past ≠ [] → t.OpenIn past ∨ t.ClosedIn past
  alive : ∀ t : Transaction, t.Alive kept ctx → t.story past ≠ []
  gone : ∀ t : Transaction, t.story past ≠ [] → ¬ t.Alive kept ctx → t.ClosedIn past
  shut : ∀ t : Transaction, t.Alive kept ctx → t.ClosedIn past → t.Shut ctx

namespace Sound

omit [Native W] in
/-- A transaction that calls were made through was born. -/
theorem mem_of_story (h : Sound born past kept ctx) (hstory : t.story past ≠ []) : t ∈ born :=
  Decidable.of_not_not (fun hnew => hstory (h.unborn t hnew))

omit [Native W] in
/-- A transaction whose handle is open was created and only used since then. -/
theorem openIn (h : Sound born past kept ctx) (ht : t ∈ born)
    (hopen : ctx.handleClosed t = false) : t.OpenIn past := by
  rcases h.story t ht with ⟨millis, description, calls, hstory, htraffic⟩
  rw [hopen] at htraffic
  cases htraffic with
  | uses huses => exact ⟨millis, description, calls, hstory, huses⟩

omit [Native W] in
/-- A transaction whose handle is closed was closed by the last of its calls. -/
theorem closedIn (h : Sound born past kept ctx) (ht : t ∈ born)
    (hclosed : ctx.handleClosed t = true) : t.ClosedIn past := by
  rcases h.story t ht with ⟨millis, description, calls, hstory, htraffic⟩
  rw [hclosed] at htraffic
  cases htraffic with
  | closes huses => exact ⟨millis, description, _, _, hstory, huses⟩

/-- Counting the clones tells all that is to be known. -/
theorem closedOnce (h : Sound born past kept ctx) : ClosedOnce past kept ctx where
  complete := h.calls
  detached := h.detached
  once t hstory := by
    have ht := h.mem_of_story hstory
    cases hclosed : ctx.handleClosed t with
    | false => exact Or.inl (h.openIn ht hclosed)
    | true => exact Or.inr (h.closedIn ht hclosed)
  alive t ht hnone := by
    rcases h.story t (h.alive t ht) with ⟨_, _, _, hstory, _⟩
    rw [hstory] at hnone
    exact absurd hnone (by simp)
  gone t hstory hgone := by
    have ht := h.mem_of_story hstory
    -- The shared number is right to the last, so it is zero, and that is when the handle is closed.
    have hnone : t.clones kept ctx = 0 :=
      Nat.eq_zero_of_not_pos (fun hpos => hgone (Transaction.alive_iff_clones.mpr hpos))
    refine h.closedIn ht ?_
    rw [Context.handleClosed, h.clones t ht, hnone, beq_self_eq_true, Bool.or_true]
  shut t ht hclosed := by
    refine Transaction.shut_of_closed ?_
    rw [← h.handleClosed ht]
    -- It cannot be open, or its last call would not be a close.
    cases hopen : ctx.handleClosed t with
    | true => rfl
    | false => exact absurd hclosed (h.openIn (h.alive t ht) hopen).not_closedIn

end Sound

/-- At every moment of a routine, at every level of a nest. -/
theorem Routine.sound (routine : Routine (Vocabulary.clones W) ε α)
    (h : Sound born past kept ctx) :
    routine.AtAllTimes ClosedOnce past kept ctx ∧
      ∃ born', Sound born' (past ++ routine.uses ctx) kept (endState routine.act ctx) := by
  -- By induction on the routine. The count at the end of the work of a policy is what the policy
  -- goes on from, and then it has to be right without the clone that the policy has kept.
  induction routine generalizing born past kept ctx with
  | done ending =>
    refine ⟨h.closedOnce, born, ?_⟩
    rw [uses, List.append_nil]
    cases ending <;> exact h
  | step s next ih =>
    rcases CloneStep.sound s h with ⟨_, hstep⟩
    rcases ih _ hstep with ⟨hall, hend⟩
    refine ⟨⟨h.closedOnce, hall⟩, ?_⟩
    rw [uses, ← List.append_assoc]
    exact hend
  | under policy body next ihbody ih =>
    have hambient : (endState (policy.call body.act) ctx).ambient = ctx.ambient :=
      Policy.ambient_call (fun start _ => body.ambient_act start)
    have hafter : ∃ born', Sound born' (past ++ policy.uses body.act body.uses ctx) kept
        (endState (policy.call body.act) ctx) := by
      -- The work is sound from where the policy comes to it, and the policy from where the work
      -- ends.
      cases hentry : policy.entrance? ctx with
      | none =>
        rw [Policy.uses, hentry]
        exact ⟨born, policy.sound_unentered h hentry hambient⟩
      | some start =>
        rcases policy.sound_entrance h hentry with ⟨_, hstart⟩
        rcases (ihbody hstart).2 with ⟨born', hbody⟩
        have hexit := Policy.sound_exit hbody hentry (body.ambient_act start) hambient
        rw [Policy.uses, hentry]
        refine ⟨born', ?_⟩
        simp only [← List.append_assoc]
        exact hexit
    rcases hafter with ⟨_, hafter⟩
    rcases ih _ hafter with ⟨hall, hend⟩
    refine ⟨⟨h.closedOnce, fun start hentry => ?_, hall⟩, ?_⟩
    · rcases policy.sound_entrance h hentry with ⟨_, hstart⟩
      exact (ihbody hstart).1
    · rw [uses, ← List.append_assoc]
      exact hend

/-- Whatever the world answers, whatever becomes of the clones and in whichever order, at every
    moment and at every level of a nest: each transaction is closed once, when there is no clone of
    it left at the latest, and after that no call is made through its clones. -/
theorem transactions_are_closed_once (routine : Routine (Vocabulary.clones W) ε α) (world : W) :
    routine.AtAllTimes ClosedOnce [] [] (Context.ofWorld ⟨⟨world, []⟩, []⟩) :=
  (routine.sound (Sound.start world)).1

end

/-- A transaction is cloned, and both clones are given up; the one that is left in between is used
    once more. -/
def clonedAndDropped : Routine (Vocabulary.clones Store) Empty Unit :=
  .step (.create ⟨.default⟩ []) fun _ => .step (.clone 0) fun _ => .step (.drop 0) fun _ =>
    .step (.use 0 .status) fun _ => .step (.drop 0) fun _ => .done (.ok ())

example : (clonedAndDropped.uses (Context.ofWorld ⟨⟨Store.fresh ⟨0, []⟩, []⟩, []⟩)).map
      (·.record.call)
    = [.createTransaction 0 none, .transactionOutcome ⟨0x1000⟩, .closeTransaction ⟨0x1000⟩] := by
  rfl

end TransactionalRegistry
