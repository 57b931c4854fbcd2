import TransactionalRegistry.Proofs.AmbientStack
import TransactionalRegistry.Proofs.Courses

/-!
# The traffic on a handle

A transaction asks for its outcome, commits and rolls back on its native handle for as long as the
handle is open, and then it closes it by one last call. After that there is no traffic on the
handle. Everything that is done through a clone keeps to that: what is done on request, what a
policy does when it finishes its transaction, and what becomes of a transaction whose last clone is
given up.

How many clones there are is counted apart from that, for all transactions at once. Only taking a
clone and giving one up changes the count.

## Main definitions

* `Call.Uses`: The calls on a handle that do not close it.
* `Traffic`: What calls are made on a handle.
* `Context.Serves`: What is done through a clone.
* `Context.handleClosed`: Whether the native handle of a transaction has been closed.
* `Context.tally`: How many clones there are of each transaction.

## Theorems

* `Traffic.trans`: Some calls and then some more.
* `Transaction.query_serves`, `Transaction.decide_serves`, `Transaction.close_serves`,
  `Transaction.release_serves`: What is done on request.
* `Policy.finishing_tally`, `Policy.leave_tally`: Finishing a transaction gives up one clone, and
  taking it off the stack another.
* `Policy.RunsInNew.closes`: What a policy leaves behind of the transaction that it has created.
-/

namespace TransactionalRegistry

variable {W ε α : Type}

/-! ## Calls on a handle -/

/-- The calls on the handle `h` that do not close it. -/
inductive Call.Uses (h : TransactionHandle) : Call → Prop
  | asks : Uses h (.transactionOutcome h)
  | commits : Uses h (.commitTransaction h)
  | rollsBack : Uses h (.rollbackTransaction h)

/-- The calls that are made on the handle `h`. It is closed before them or not, and after them or
    not; once it is closed there are none. -/
inductive Traffic (h : TransactionHandle) : Bool → List CallRecord → Bool → Prop
  | none : Traffic h true [] true
  | uses {calls : List CallRecord} : (∀ r ∈ calls, r.call.Uses h) → Traffic h false calls false
  | closes {calls : List CallRecord} {result : Except NativeError Unit} :
      (∀ r ∈ calls, r.call.Uses h) →
      Traffic h false (calls ++ [⟨.closeTransaction h, result⟩]) true

namespace Traffic

variable {h : TransactionHandle} {closed closed' closed'' : Bool} {calls more : List CallRecord}

/-- Without calls the handle is closed or open as before. -/
theorem idle (h : TransactionHandle) (closed : Bool) : Traffic h closed [] closed := by
  cases closed with
  | true => exact .none
  | false => exact .uses (fun _ hr => absurd hr List.not_mem_nil)

/-- One call that does not close the handle leaves it open. -/
theorem one {call : Call} (hcall : call.Uses h) (result : Except NativeError call.Answer) :
    Traffic h false [⟨call, result⟩] false := by
  refine .uses (fun r hr => ?_)
  rw [List.mem_singleton.mp hr]
  exact hcall

/-- What is called after a close must be nothing. -/
theorem trans (hfirst : Traffic h closed calls closed') (hrest : Traffic h closed' more closed'') :
    Traffic h closed (calls ++ more) closed'' := by
  cases hfirst with
  | none => exact hrest
  | uses hcalls =>
    cases hrest with
    | uses hmore => exact .uses (List.forall_mem_append.mpr ⟨hcalls, hmore⟩)
    | closes hmore =>
      rw [← List.append_assoc]
      exact .closes (List.forall_mem_append.mpr ⟨hcalls, hmore⟩)
  -- The handle is closed now, so that nothing more is called.
  | closes hcalls =>
    cases hrest with
    | none =>
      rw [List.append_nil]
      exact .closes hcalls

end Traffic

/-! ### The calls of a policy -/

/-- To ask for the state of a transaction is traffic that leaves the handle as it is. -/
theorem Asks.traffic {h : TransactionHandle} {closed : Bool} {calls : List CallRecord}
    {result : Except (Failure TransactionError) TransactionStatus}
    (hasks : Asks h closed calls result) : Traffic h closed calls closed := by
  cases hasks with
  | closed => exact .none
  | gone | failed | known | unknown => exact .one .asks _

/-- To settle a transaction is traffic that leaves the handle as it is. -/
theorem Settles.traffic {h : TransactionHandle} {shared : Shared} {calls : List CallRecord}
    {result : Except (Failure TransactionError) Unit} (hsettles : Settles h shared calls result) :
    Traffic h shared.closed calls shared.closed := by
  -- A transaction that is active is not closed, so there can be one more call.
  have hdecides : ∀ {asking : List CallRecord} {result : Except NativeError Unit},
      Asks h shared.closed asking (.ok .active) →
      Traffic h shared.closed (asking ++ [⟨.commitTransaction h, result⟩]) shared.closed := by
    intro asking result hasks
    generalize shared.closed = closed at hasks
    cases closed with
    | true => cases hasks
    | false => exact hasks.traffic.trans (.one .commits result)
  cases hsettles with
  | unasked hasks => exact hasks.traffic
  | decided hasks => exact hasks.traffic
  | manual hasks => exact hasks.traffic
  | committed hasks => exact hdecides hasks
  | refused hasks => exact hdecides hasks

/-- After a close the handle is closed, whether the call was made now or before. -/
theorem Closes.traffic {h : TransactionHandle} {closed : Bool} {calls : List CallRecord}
    {result : Except TransactionError Unit} (hcloses : Closes h closed calls result) :
    Traffic h closed calls true := by
  have hnone : ∀ r ∈ ([] : List CallRecord), r.call.Uses h :=
    fun _ hr => absurd hr List.not_mem_nil
  have hone : ∀ result : Except NativeError Unit,
      Traffic h false [⟨.closeTransaction h, result⟩] true :=
    fun _ => Traffic.closes hnone
  cases hcloses with
  | already => exact .none
  | closed => exact hone _
  | failed => exact hone _

/-- Finalizing a transaction leaves its handle closed, however the work has ended. -/
theorem Finalizes.traffic {h : TransactionHandle} {shared : Shared}
    {ending : Except (Failure ε) α} {calls : List CallRecord}
    {result : Except (Failure (PropagationError ε)) α}
    (hfinalizes : Finalizes h shared ending calls result) :
    Traffic h shared.closed calls true := by
  cases hfinalizes with
  | value hsettles hcloses => exact hsettles.traffic.trans hcloses.traffic
  | unclosed hsettles hcloses => exact hsettles.traffic.trans hcloses.traffic
  | unsettled hsettles hcloses => exact hsettles.traffic.trans hcloses.traffic
  | failed hcloses => exact hcloses.traffic
  | panicked hcloses => exact hcloses.traffic
  | unknown hsettles hcloses => exact hsettles.traffic.trans hcloses.traffic

/-! ## How many clones there are -/

namespace Context

/-- How many clones there are of each transaction so far. -/
def tally (ctx : Context W) : List Nat :=
  ctx.shared.map (·.clones)

/-- Whether the native handle of a transaction has been closed: on request, or because the last
    clone was given up. -/
def handleClosed (ctx : Context W) (t : Transaction) : Bool :=
  (ctx.sharedOf t).closed || (ctx.sharedOf t).clones == 0

variable {ctx ctx' : Context W} {t : Transaction} {f : Shared → Shared}

/-- When the clones of a transaction change, the tally changes in its place. -/
theorem tally_update {g : Nat → Nat} (hf : ∀ shared, (f shared).clones = g shared.clones)
    (ctx : Context W) (t : Transaction) :
    (ctx.updateShared t f).tally = ctx.tally.modify t.id g := by
  unfold tally updateShared
  refine List.ext_getElem? (fun i => ?_)
  -- The place of this transaction is the only one that is changed.
  rw [List.getElem?_map, List.getElem?_modify, List.getElem?_modify, List.getElem?_map]
  cases ctx.shared[i]? with
  | none => rfl
  | some shared =>
    change some (if t.id = i then f shared else shared).clones
      = some (if t.id = i then g shared.clones else shared.clones)
    by_cases hi : t.id = i
    · rw [if_pos hi, if_pos hi]
      exact congrArg some (hf shared)
    · rw [if_neg hi, if_neg hi]

/-- What is shared is what is found under the number of the transaction. -/
theorem sharedOf_of_found {shared : Shared} (h : ctx.shared[t.id]? = some shared) :
    ctx.sharedOf t = shared := by
  rw [sharedOf, h]
  rfl

/-- What is shared changes as it is told to. -/
theorem sharedOf_update (hid : t.id < ctx.shared.length) :
    (ctx.updateShared t f).sharedOf t = f (ctx.sharedOf t) := by
  have hfound := List.getElem?_eq_getElem hid
  have hchanged : (ctx.updateShared t f).shared[t.id]? = some (f ctx.shared[t.id]) := by
    rw [updateShared, List.getElem?_modify_eq, hfound]
    rfl
  rw [sharedOf_of_found hchanged, sharedOf_of_found hfound]

/-- The tally has the number of clones in the place of the transaction. -/
theorem tally_found (hid : t.id < ctx.shared.length) :
    ctx.tally[t.id]? = some (ctx.sharedOf t).clones := by
  have hfound := List.getElem?_eq_getElem hid
  rw [tally, List.getElem?_map, sharedOf_of_found hfound, hfound]
  rfl

/-- Counting otherwise creates no transaction. -/
theorem length_of_tally {g : Nat → Nat} (h : ctx'.tally = ctx.tally.modify t.id g) :
    ctx'.shared.length = ctx.shared.length := by
  have hlength := congrArg List.length h
  rw [List.length_modify, tally, tally, List.length_map, List.length_map] at hlength
  exact hlength

/-- The number of clones is read off the tally. -/
theorem clones_of_tally {g : Nat → Nat} (h : ctx'.tally = ctx.tally.modify t.id g)
    (hid : t.id < ctx.shared.length) : (ctx'.sharedOf t).clones = g (ctx.sharedOf t).clones := by
  have hchanged := congrArg (·[t.id]?) h
  simp only [List.getElem?_modify_eq, tally_found hid] at hchanged
  rw [tally_found (by rw [length_of_tally h]; exact hid)] at hchanged
  exact Option.some.inj hchanged

/-- A transaction with a clone has been created. -/
theorem id_lt_of_clones (h : 0 < (ctx.sharedOf t).clones) : t.id < ctx.shared.length := by
  refine Nat.lt_of_not_le (fun hle => ?_)
  rw [sharedOf, List.getElem?_eq_none hle] at h
  exact absurd h (by simp [Shared.absent])

/-- As long as there is a clone, the handle is closed only on request. -/
theorem handleClosed_of_clones (h : 0 < (ctx.sharedOf t).clones) :
    ctx.handleClosed t = (ctx.sharedOf t).closed := by
  rw [handleClosed, beq_false_of_ne (Nat.ne_of_gt h), Bool.or_false]

/-- What is shared tells whether the handle is closed. -/
theorem handleClosed_congr (h : ctx'.sharedOf t = ctx.sharedOf t) :
    ctx'.handleClosed t = ctx.handleClosed t := by
  rw [handleClosed, h, ← handleClosed]

variable [Native W]

/-- Calls and changes of anything else leave the tally as it is. -/
theorem calm_tally (ns : List Nat) : Context.Calm (fun ctx : Context W => ctx.tally = ns) where
  called _ _ _ _ h := h
  updated ctx t f hf h := by
    have hsame : (ctx.updateShared t f).tally = ctx.tally.modify t.id id :=
      tally_update (fun shared => hf shared) ctx t
    rw [hsame, List.modify_id]
    exact h

/-- What is done through a clone of a transaction: some traffic on its handle. -/
def Serves (t : Transaction) (ctx ctx' : Context W) : Prop :=
  ∃ calls, ctx.Goes t calls ctx' ∧
    Traffic t.handle (ctx.sharedOf t).closed calls (ctx'.sharedOf t).closed

/-- Nothing is done through the clone. -/
theorem serves_refl (t : Transaction) (ctx : Context W) : ctx.Serves t ctx :=
  ⟨[], .refl t ctx, .idle _ _⟩

/-- Nothing but one call, if the transaction is still open. -/
theorem serves_of_waits {calls : List CallRecord} (hwaits : ctx.Waits t calls ctx')
    (htraffic : Traffic t.handle (ctx.sharedOf t).closed calls (ctx.sharedOf t).closed) :
    ctx.Serves t ctx' := by
  refine ⟨calls, hwaits.1, ?_⟩
  have hsame : ctx'.sharedOf t = ctx.sharedOf t := by rw [sharedOf, hwaits.2, ← sharedOf]
  rw [hsame]
  exact htraffic

end Context

/-! ## What is done on request -/

variable [Native W]

namespace Transaction

variable {t : Transaction} {ctx : Context W}

open Context (Serves)

/-- To ask through a clone is to serve its transaction. -/
theorem query_serves (t : Transaction) (ctx : Context W) :
    Ends t.query ctx (fun _ => ctx.Serves t) (fun _ => ctx.Serves t) := by
  unfold query
  refine ends_shared ?_
  cases hclosed : (ctx.sharedOf t).closed with
  | true => exact ends_pure (Context.serves_refl t ctx)
  | false =>
    -- There is one call, and it is not a close.
    have hasked : ∀ {result : Except NativeError Int32} {ctx' : Context W},
        ctx.Waits t [⟨.transactionOutcome t.handle, result⟩] ctx' → ctx.Serves t ctx' := by
      intro result ctx' hwaits
      refine Context.serves_of_waits hwaits ?_
      rw [hclosed]
      exact .one .asks result
    refine ends_bind (Act.ends_attempt (Act.ends_call ?_ ?_))
    · intro outcome world hperform
      have hserves := hasked ⟨Context.goes_ok hperform, rfl⟩
      simp only []
      split
      · exact ends_pure hserves
      · exact ends_pure hserves
    · intro e world hperform
      have hserves := hasked ⟨Context.goes_error hperform, rfl⟩
      simp only []
      split
      · exact ends_pure hserves
      · exact ends_throw hserves

/-- The status is asked for by one such call at most. -/
theorem status_serves (t : Transaction) (ctx : Context W) :
    Ends t.status ctx (fun _ => ctx.Serves t) (fun _ => ctx.Serves t) := by
  refine (t.query_serves ctx).bind (fun answer ctx' h => ?_) (fun _ _ h => h)
  cases answer with
  | ok status => exact ends_pure h
  | error outcome => exact ends_throw h

/-- What is shown of a transaction is asked for by one such call at most. -/
theorem display_serves (t : Transaction) (ctx : Context W) :
    Ends (t.display : Act W ε String) ctx (fun _ => ctx.Serves t) (fun _ => ctx.Serves t) := by
  refine ends_bind (ends_bind (Act.ends_attempt ((t.query_serves ctx).mono ?_ ?_)))
  · intro answer ctx' h
    cases answer with
    | ok status => exact ends_pure (ends_pure h)
    | error outcome => exact ends_pure (ends_pure h)
  · intro failure ctx' h
    cases failure with
    | error e => exact ends_pure (ends_pure h)
    | panic message => exact h

/-- Committing and rolling back are alike. -/
theorem decide_serves {call : Call} (hcall : call.Uses t.handle) (operation : String)
    (entry : LogEntry) (ctx : Context W) :
    Ends (do
      t.requireOpen operation
      let _ ← Transaction.calling operation (Act.call call)
      Act.log entry : Act W _ _) ctx (fun _ => ctx.Serves t) (fun _ => ctx.Serves t) := by
  unfold requireOpen
  refine ends_bind (ends_shared ?_)
  -- A closed transaction is told as such without a call.
  cases hclosed : (ctx.sharedOf t).closed with
  | true => exact ends_throw (Context.serves_refl t ctx)
  | false =>
    have hcalled : ∀ {result : Except NativeError call.Answer} {ctx' : Context W},
        ctx.Waits t [⟨call, result⟩] ctx' → ctx.Serves t ctx' := by
      intro result ctx' hwaits
      refine Context.serves_of_waits hwaits ?_
      rw [hclosed]
      exact .one hcall result
    refine ends_pure (ends_bind (Act.ends_mapError (Act.ends_call ?_ ?_)))
    · intro answer world hperform
      exact Act.ends_log (hcalled ⟨(Context.goes_ok hperform).logged, rfl⟩)
    · intro e world hperform
      exact hcalled ⟨Context.goes_error hperform, rfl⟩

/-- To close through a clone is to serve its transaction. -/
theorem close_serves (t : Transaction) (ctx : Context W) :
    Ends t.close ctx (fun _ => ctx.Serves t) (fun _ => ctx.Serves t) := by
  refine (t.close_goes ctx).mono ?_ ?_
  · rintro _ ctx' ⟨calls, hgoes, hclosed, hcloses⟩
    refine ⟨calls, hgoes, ?_⟩
    rw [hclosed]
    exact hcloses.traffic
  · rintro _ ctx' ⟨_, calls, _, hgoes, hclosed, hcloses⟩
    refine ⟨calls, hgoes, ?_⟩
    rw [hclosed]
    exact hcloses.traffic

/-- A change of what is shared that leaves the transaction open or closed is no traffic. -/
theorem serves_update {f : Shared → Shared} (hf : ∀ shared, (f shared).closed = shared.closed)
    (ctx : Context W) (t : Transaction) : ctx.Serves t (ctx.updateShared t f) := by
  refine ⟨[], Context.goes_updateShared t f ctx, ?_⟩
  have hsame : ((ctx.updateShared t f).sharedOf t).closed = (ctx.sharedOf t).closed := by
    rw [Context.sharedOf, Context.sharedOf, Context.updateShared, List.getElem?_modify_eq]
    cases ctx.shared[t.id]? with
    | none => rfl
    | some shared => exact hf shared
  rw [hsame]
  exact .idle _ _

/-- Giving up a clone leaves one clone less of this transaction, and closing has no part in that. -/
theorem release_tally (t : Transaction) (ctx : Context W) :
    Ends (t.release : Act W ε Unit) ctx
      (fun _ ctx' => ctx'.tally = ctx.tally.modify t.id (· - 1)) (fun _ _ => False) := by
  unfold release
  refine ends_shared (ends_bind (ends_modify ?_))
  have hgiven : (ctx.updateShared t fun shared =>
      { shared with clones := shared.clones - 1 }).tally = ctx.tally.modify t.id (· - 1) :=
    Context.tally_update (fun _ => rfl) ctx t
  split
  · refine (closeAbandoned_goes t _).mono ?_ (fun _ _ h => h)
    rintro _ ctx' ⟨_, _, hshared⟩
    rw [Context.tally, hshared]
    exact hgiven
  · exact ends_pure hgiven

/-- Giving up a clone closes the native handle if it was the last one. -/
theorem release_serves (hlive : 0 < (ctx.sharedOf t).clones) :
    Ends (t.release : Act W ε Unit) ctx
      (fun _ ctx' => ∃ calls, ctx.Goes t calls ctx' ∧
        Traffic t.handle (ctx.sharedOf t).closed calls (ctx'.handleClosed t))
      (fun _ _ => False) := by
  unfold release
  refine ends_shared (ends_bind (ends_modify ?_))
  have hgiven := Context.goes_updateShared t
    (fun shared => { shared with clones := shared.clones - 1 }) ctx
  have hshared := Context.sharedOf_update
    (f := fun shared => { shared with clones := shared.clones - 1 }) (Context.id_lt_of_clones hlive)
  -- The last clone of an open transaction is the one that closes it.
  by_cases hlast : (ctx.sharedOf t).clones = 1 ∧ (ctx.sharedOf t).closed = false
  · rw [if_pos ⟨hlast.1, by rw [hlast.2]; rfl⟩]
    refine (closeAbandoned_goes t _).mono ?_ (fun _ _ h => h)
    rintro _ ctx' ⟨result, hgoes, hsame⟩
    -- There is no clone any more, and that is what closed means here.
    have hnone : ctx'.handleClosed t = true := by
      rw [Context.handleClosed, Context.sharedOf, hsame, ← Context.sharedOf, hshared]
      simp [hlast.1]
    refine ⟨_, hgiven.trans hgoes, ?_⟩
    rw [hnone, hlast.2]
    exact Traffic.closes (fun _ hr => absurd hr List.not_mem_nil)
  · rw [if_neg (fun h => hlast ⟨h.1, by simpa using h.2⟩)]
    refine ends_pure ⟨[], hgiven, ?_⟩
    -- There is another clone, or the transaction was closed before.
    have hsame : (ctx.updateShared t fun shared =>
        { shared with clones := shared.clones - 1 }).handleClosed t = (ctx.sharedOf t).closed := by
      rw [Context.handleClosed, hshared]
      cases hclosed : (ctx.sharedOf t).closed with
      | true => rfl
      | false =>
        have hother : (ctx.sharedOf t).clones ≠ 1 := fun hone => hlast ⟨hone, hclosed⟩
        have hmore : 0 < (ctx.sharedOf t).clones - 1 := by omega
        exact beq_false_of_ne (Nat.ne_of_gt hmore)
    rw [hsame]
    exact .idle _ _

end Transaction

/-! ## What a policy does -/

namespace Policy

variable {t : Transaction} {ctx : Context W} {P : Context W → Prop}

/-- Settling a transaction keeps what calls and logs keep. -/
theorem keeps_settle (hP : Context.Calm P) (t : Transaction) : Keeps P (settle t : Act W _ _) := by
  refine (hP.keeps_status t).bind (fun status => ?_)
  split
  · refine (Context.Lasting.keeps_shared t).bind (fun shared => ?_)
    split
    · exact hP.keeps_decide t _ _ _
    · exact hP.keeps_log _
  · exact hP.keeps_log _

/-- Finishing a transaction gives up the clone that the policy has kept of it. -/
theorem finishing_tally (t : Transaction) (ending : Except (Failure ε) α) (ctx : Context W) :
    Ends (finishing t (Act.ended ending)) ctx
      (fun _ ctx' => ctx'.tally = ctx.tally.modify t.id (· - 1))
      (fun _ ctx' => ctx'.tally = ctx.tally.modify t.id (· - 1)) := by
  have hcalm := @Context.calm_tally W _ ctx.tally
  -- Until the clone is given up, the tally is what it was before the work.
  have hgives : ∀ {ε' : Type} (ctx' : Context W), ctx'.tally = ctx.tally →
      Ends (t.release : Act W ε' Unit) ctx'
        (fun _ ctx'' => ctx''.tally = ctx.tally.modify t.id (· - 1)) (fun _ _ => False) := by
    intro ε' ctx' hsame
    rw [← hsame]
    exact t.release_tally ctx'
  have hcloses : ∀ {ε' : Type} (ctx' : Context W), ctx'.tally = ctx.tally →
      Ends (t.close.attempt : Act W ε' _) ctx' (fun _ ctx'' => ctx''.tally = ctx.tally)
        (fun _ _ => False) := by
    intro ε' ctx' hsame
    refine Act.ends_attempt (((t.close_goes ctx').and (hcalm.keeps_close t ctx' hsame)).mono ?_ ?_)
    · exact fun _ _ hstep => hstep.2
    · rintro _ ctx'' ⟨⟨_, _, rfl, _⟩, hstep⟩
      exact hstep
  have hwork : Ends (actAndSettle t (Act.ended ending : Act W ε α)) ctx
      (fun _ ctx' => ctx'.tally = ctx.tally) (fun _ ctx' => ctx'.tally = ctx.tally) := by
    unfold actAndSettle
    have hended : Keeps (fun ctx' : Context W => ctx'.tally = ctx.tally)
        (Act.ended ending : Act W ε α) := by
      cases ending <;> exact fun _ h => h
    refine hended.attempt.bind (fun result => ?_) ctx rfl
    cases result with
    | ok a => exact (keeps_settle hcalm t).attempt.bind (fun _ => keeps_pure _)
    | error e => exact keeps_pure _
  unfold finishing
  refine ends_bind (Act.ends_lift (Act.ends_onPanic (hwork.mono ?_ ?_)))
  · rintro ⟨result, settled⟩ ctx₁ hsame
    refine (hcloses ctx₁ hsame).bind (fun closed ctx₂ hclosed => ?_) (fun _ _ h => h.elim)
    refine (hgives ctx₂ hclosed).bind (fun _ ctx₃ hgiven => ?_) (fun _ _ h => h.elim)
    cases combine result settled closed with
    | ok a => exact ends_pure hgiven
    | error e => exact ends_throw hgiven
  · -- An error cannot arise there; after a panic the transaction is closed and the clone given up.
    intro failure ctx₁ hsame
    cases failure with
    | error e => exact e.elim
    | panic message =>
      refine ends_bind (Act.ends_log ?_)
      refine (hcloses (ctx₁.logged _) hsame).bind (fun closed ctx₂ hclosed => ?_)
        (fun _ _ h => h.elim)
      cases closed with
      | ok _ => exact hgives ctx₂ hclosed
      | error e => exact ends_bind (Act.ends_log (hgives _ hclosed))

variable {policy : Policy} {act : Act W ε α} {hides : Bool} {start : Context W}
  {calls : List CallRecord}

/-- Taking a closed transaction off the stack leaves it closed, and gives up one clone. -/
theorem leave_tally {stack : List (Option Transaction)} (hstack : ctx.ambient = some t :: stack)
    (hclosed : (ctx.sharedOf t).closed = true) :
    Ends (Ambient.leave : Act W Empty Unit) ctx
      (fun _ ctx' => (ctx'.sharedOf t).closed = true ∧ ctx'.tally = ctx.tally.modify t.id (· - 1))
      (fun _ _ => False) := by
  unfold Ambient.leave
  refine ends_bind (ends_get (ends_bind (ends_modify (ends_bind (Act.ends_log ?_)))))
  rw [hstack]
  refine ((release_closed ?_).and (t.release_tally _)).mono ?_ (fun _ _ h => h.1)
  · exact hclosed
  · rintro _ ctx' ⟨⟨_, hstill⟩, hgiven⟩
    exact ⟨hstill, hgiven⟩

/-- A policy leaves the transaction that it has created closed, and gives up its two clones: the one
    that it has kept and the one on the ambient stack. -/
theorem RunsInNew.closes (hnew : policy.RunsInNew act ctx hides t start calls)
    (hact : (endState act start).ambient = start.ambient) :
    ((endState (policy.call act) ctx).sharedOf t).closed = true ∧
      (endState (policy.call act) ctx).tally
        = ((endState act start).tally.modify t.id (· - 1)).modify t.id (· - 1) := by
  rcases hnew.origin with ⟨created, hcreate, hambient, rfl⟩
  -- The work ends with its transaction on top, and finishing leaves it there, closed.
  rcases finished t act (started t created) with ⟨made, hgoes, hclosed, _⟩
  have htop : (endState (finishing t act) (started t created)).ambient
      = some t :: created.ambient := hgoes.ambient.trans hact
  have hfinished : (endState (finishing t act) (started t created)).tally
      = (endState act (started t created)).tally.modify t.id (· - 1) := by
    rw [endState, finishing_eq, ← endState]
    exact (finishing_tally t _ _).endState
  rcases (leave_tally htop hclosed).endState_total with ⟨hstill, hgiven⟩
  rw [hfinished] at hgiven
  -- Nothing else happens when the current transaction is shown again.
  have hstack : (endState (Ambient.leave : Act W Empty Unit)
      (endState (finishing t act) (started t created))).ambient
      = (if hides then [none] else []) ++ ctx.ambient := by
    rw [Ambient.leave_ambient, htop]
    exact hambient.trans (ambient_hidden hides ctx.consulted)
  rw [(call_of_created act hnew.course hcreate).2, Context.sharedOf, Context.tally,
    (Context.passes_shown hides hstack).shared]
  exact ⟨hstill, hgiven⟩

end Policy

end TransactionalRegistry
