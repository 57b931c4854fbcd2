import TransactionalRegistry.Proofs.Entering
import TransactionalRegistry.Proofs.Finishing
import TransactionalRegistry.Proofs.Programs

/-!
# New transactions are transparent

A policy runs a program in a transaction that it creates, commits and closes. Whoever looks at the
answers of the program and at the live trees afterwards cannot tell it from the same program run in
no transaction at all, except by the times of writes, as long as the time of the transaction is not
over by the end.

The program runs on two stores that mirror each other, since a new transaction sees the live trees
and has nothing to be replayed. They still do when it ends with a value, and so the commit makes the
live trees what they are outside.

## Theorems

* `create_ends`: What it takes to create a transaction.
* `Store.Created.mirrors`: A new transaction sees what is seen outside.
* `inNewTransaction_finishes`: A program in a new transaction.
* `new_transaction_is_transparent`: The policies that create a transaction.
-/

namespace TransactionalRegistry

open Store

variable {ε α : Type}

/-- What a new transaction needs of its settings and of the store. -/
structure Creatable (settings : TransactionSettings) (millis : UInt32) (s : Store) : Prop where
  millis : settings.timeout.wholeMillis? = some millis
  description : settings.description.any (maxDescriptionLength < Utf16.length ·) = false
  handle : (TransactionHandle.mk s.nextHandle).isInvalid = false

/-- A transaction was created, with one clone of it. -/
structure Begun (settings : TransactionSettings) (millis : UInt32) (t : Transaction)
    (ctx ctx' : Context Store) : Prop where
  creatable : Creatable settings millis ctx.world
  number : t.id = ctx.shared.length
  ambient : ctx'.ambient = ctx.ambient
  shared : ctx'.shared = ctx.shared ++ [Shared.fresh]
  world : Created millis settings.description t.handle ctx.world ctx'.world

theorem create_ends (settings : TransactionSettings) (ctx : Context Store) :
    Ends (Transaction.create settings.timeout settings.description) ctx
      (fun t ctx' => ∃ millis, Begun settings millis t ctx ctx')
      (fun _ _ => ∀ millis, ¬ Creatable settings millis ctx.world) := by
  rw [Policy.create_eq]
  simp only []
  cases hmillis : settings.timeout.wholeMillis? with
  | none =>
    refine ends_throw (fun millis h => ?_)
    have hsome := h.millis
    rw [hmillis] at hsome
    exact absurd hsome (by simp)
  | some millis =>
    have hperform : Ends (perform (.createTransaction millis settings.description)) ctx.world _ _ :=
      createTransaction_ends millis settings.description ctx.world
    have hcall : Ends (Transaction.calling "CreateTransaction"
          (Act.call (.createTransaction millis settings.description))) ctx
        (fun handle ctx' =>
          (Creatable settings millis ctx.world ∧
            Created millis settings.description handle ctx.world ctx'.world) ∧
          ctx'.ambient = ctx.ambient ∧ ctx'.shared = ctx.shared)
        (fun _ _ => ∀ millis, ¬ Creatable settings millis ctx.world) := by
      refine Ends.mapError _ ((ends_call hperform).mono ?_ ?_)
      · intro handle ctx' h
        rcases h with ⟨⟨hlong, hvalid, hcreated⟩, hframe⟩
        rw [hcreated.handle] at hvalid
        exact ⟨⟨⟨hmillis, hlong, hvalid⟩, hcreated⟩, hframe⟩
      · intro _ ctx' h millis' hcreatable
        rcases h with ⟨_, ⟨hlong, _⟩ | hinvalid⟩
        · rw [hcreatable.description] at hlong
          exact absurd hlong (by simp)
        · rw [hcreatable.handle] at hinvalid
          exact absurd hinvalid (by simp)
    refine hcall.bind ?_ (fun _ _ h => h)
    intro handle ctx' h
    rcases h with ⟨⟨hcreatable, hcreated⟩, hambient, hshared⟩
    refine ⟨millis, hcreatable, congrArg List.length hshared, hambient, ?_, ?_⟩
    · exact congrArg (· ++ [Shared.fresh]) hshared
    · exact ⟨hcreated.handle, hcreated.hives, hcreated.keys, hcreated.protectedPlaces,
        hcreated.nextHandle, hcreated.clock, hcreated.transactions⟩

/-- The deadline of a transaction that is created now. -/
def Store.deadlineOf (millis : UInt32) (s : Store) : Option Time :=
  (TransactionRecord.fresh millis none s.clock.read.now).deadline

/-- A new transaction sees what the live trees are, and has no changes yet. -/
theorem Store.Created.mirrors {millis : UInt32} {description : Option String}
    {t : TransactionHandle} {s s' plain : Store} (h : Created millis description t s s')
    (hplain : ∃ journal, s = { plain with journal := journal }) :
    Mirrors t (plain.deadlineOf millis) ⟨plain.nextHandle, plain.keys, plain.keys⟩ plain s' := by
  rcases hplain with ⟨journal, rfl⟩
  refine ⟨rfl, h.keys, rfl, h.nextHandle, h.protectedPlaces, ?_⟩
  refine ⟨.fresh millis description s'.clock.now, ?_, rfl, ?_, ?_, ?_⟩
  · rw [h.record, if_pos rfl]
  · rw [h.clock]
    rfl
  · exact congrArg Hives.timeless h.hives
  · rw [h.hives]
    rfl

theorem Store.Mirrors.pending {t : TransactionHandle} {deadline : Option Time} {hs : Handles}
    {plain inside : Store} (h : Mirrors t deadline hs plain inside) :
    Pending t deadline plain.hives.timeless inside := by
  rcases h.record with ⟨r, hr, hactive, hdeadline, _, hreplay⟩
  exact ⟨r, hr, hactive, hdeadline, hreplay⟩

theorem within_eq {entry : Option Transaction} {act : Act Store ε α} {ctx entered : Context Store}
    (henter : (Ambient.enter entry : Act Store ε Unit) ctx = .ok () entered) :
    Ambient.within entry act ctx = act.ensuring Ambient.leave entered :=
  bind_of_ok henter

section

variable {t : Transaction} {deadline : Option Time} {hs : Handles} {s : Store}
  {program : Program ε α} {ctx plain : Context Store} {noted : List Noted} {a : α}

/-- A program that ends with a value outside does so inside, and has its changes ready. -/
theorem act_finishes {state : Shared} {stack : List (Option Transaction)}
    (hmirrors : Mirrors t.handle deadline hs s ctx.world) (hshared : ctx.shared[t.id]? = some state)
    (hambient : ctx.ambient = some t :: stack)
    (hrun : program.act (Context.ofWorld s) = .ok (noted, a) plain)
    (hroom : program.Throughout Store.HasRoom (Context.ofWorld s)) :
    Finishes (Context.Overdue deadline) program.act ctx
      (fun x ctx' => x = (noted, a) ∧ Situation t state (some t :: stack)
        (Pending t.handle deadline plain.world.hives.timeless) ctx') := by
  -- The program runs with the new transaction on top of the ambient stack.
  let w : Surroundings := ⟨t.handle, deadline, some t :: stack, ctx.shared, rfl⟩
  have hwork : w.Work Handles.Any (Context.ofWorld s) ctx :=
    ⟨⟨hs, trivial, hmirrors⟩, rfl, hambient, rfl⟩
  rcases (program.agrees w).run _ _ ⟨hwork, hroom⟩ with hlate | halike
  · exact finishes_of_late hlate.1
  · rw [hrun] at halike
    generalize hinside : program.act ctx = ending at halike
    cases halike with
    | @ok _ x _ ctx' hends =>
      rcases hends with ⟨rfl, ⟨hs', _, hmirrors'⟩, _, hambient', hshared'⟩
      unfold Finishes Ends
      rw [hinside]
      refine Or.inr ⟨rfl, hmirrors'.pending, ?_, hambient'⟩
      rw [hshared']
      exact hshared

/-- The program is run with its transaction current, and the transaction is finished. -/
theorem within_finishes (hmirrors : Mirrors t.handle deadline hs s ctx.world)
    (hshared : ctx.shared[t.id]? = some Shared.fresh)
    (hrun : program.act (Context.ofWorld s) = .ok (noted, a) plain)
    (hroom : program.Throughout Store.HasRoom (Context.ofWorld s)) :
    Finishes (Context.Overdue deadline)
      (Ambient.within (some t) (Policy.finishing t program.act)) ctx
      (fun x ctx' => x = (noted, a) ∧ ctx'.ambient = ctx.ambient ∧
        ctx'.world.Shows plain.world.hives.timeless) := by
  let entered : Context Store :=
    ⟨ctx.world.note (.trace "enter ambient scope"), some t :: ctx.ambient,
      ctx.shared.modify t.id fun shared => { shared with clones := shared.clones + 1 }⟩
  -- The policy holds one clone, and the ambient stack another.
  have hclones : entered.shared[t.id]? = some ⟨true, false, 2⟩ := by
    change (ctx.shared.modify t.id _)[t.id]? = _
    rw [List.getElem?_modify, hshared]
    simp [Shared.fresh]
  have hentered : Mirrors t.handle deadline hs s entered.world := hmirrors.note
  have hact := act_finishes hentered hclones rfl hrun hroom
  have henter : (Ambient.enter (some t) : Act Store (PropagationError ε) Unit) ctx
      = .ok () entered := rfl
  refine Finishes.of_eq (within_eq henter) ?_
  refine (finishing_finishes rfl rfl hact).ensuring keeps_leave ?_
  intro x ctx' h
  exact (leave_finishes rfl h.2).mono (fun _ _ hleft => ⟨h.1, hleft⟩)

/-- A program in a new transaction ends as it does in none, and the live trees are the same. -/
theorem inNewTransaction_finishes (policy : Policy) {millis : UInt32}
    (hworld : ∃ journal, ctx.world = { s with journal := journal })
    (hcreatable : Creatable policy.settings millis s)
    (hrun : program.act (Context.ofWorld s) = .ok (noted, a) plain)
    (hroom : program.Throughout Store.HasRoom (Context.ofWorld s)) :
    Finishes (Context.Overdue (s.deadlineOf millis)) (policy.inNewTransaction program.act) ctx
      (fun x ctx' => x = (noted, a) ∧ ctx'.ambient = ctx.ambient ∧
        ctx'.world.Shows plain.world.hives.timeless) := by
  refine Ends.bind ((create_ends policy.settings ctx).mapError _) ?_ ?_
  · intro t ctx' hbegun
    rcases hbegun with ⟨millis', hbegun⟩
    -- What the creation was asked for and what it has checked is one timeout.
    have hmillis : millis' = millis := by
      have hsome := hbegun.creatable.millis
      rw [hcreatable.millis] at hsome
      exact (Option.some.inj hsome).symm
    subst hmillis
    have hfresh : ctx'.shared[t.id]? = some Shared.fresh := by
      rw [hbegun.shared, hbegun.number]
      simp
    let logged : Context Store :=
      { ctx' with world := ctx'.world.note (.debug "running in new transaction") }
    have hmirrors : Mirrors t.handle (s.deadlineOf millis') ⟨s.nextHandle, s.keys, s.keys⟩ s
        logged.world := (hbegun.world.mirrors hworld).note
    refine ends_bind ?_
    change Finishes _ (Ambient.within (some t) (Policy.finishing t program.act)) logged _
    refine (within_finishes hmirrors hfresh hrun hroom).mono ?_
    exact fun _ _ h => ⟨h.1, h.2.1.trans hbegun.ambient, h.2.2⟩
  · intro _ _ hrefused
    rcases hworld with ⟨journal, hworld⟩
    refine absurd ?_ (hrefused millis)
    rw [hworld]
    exact ⟨hcreatable.millis, hcreatable.description, hcreatable.handle⟩

end

/-! ## Policies that create a transaction -/

/-- The context in which a policy makes its choice. -/
def Context.entered (ctx : Context Store) : Context Store :=
  { ctx with world := ctx.world.note (.trace "propagation policy entered") }

theorem log_entered (ctx : Context Store) :
    (Act.log (.trace "propagation policy entered") : Act Store ε Unit) ctx
      = .ok () ctx.entered :=
  rfl

theorem call_of_none {policy : Policy} {act : Act Store ε α} {ctx : Context Store}
    (hcreates : policy.propagation = .requiresNew ∨ policy.propagation = .required)
    (hnone : Ambient.top ctx.ambient = none) :
    policy.call act ctx = policy.inNewTransaction act ctx.entered := by
  have hcurrent : (Ambient.current : Act Store (PropagationError ε) _) ctx = .ok none ctx := by
    rw [← hnone]
    rfl
  unfold Policy.call
  rw [bind_of_ok hcurrent, bind_of_ok (log_entered ctx)]
  rcases hcreates with hpropagation | hpropagation
  · simp only [hpropagation]
  · simp only [hpropagation]

theorem call_of_current {policy : Policy} {act : Act Store ε α} {ctx : Context Store}
    {current : Transaction} (hcreates : policy.propagation = .requiresNew)
    (hcurrent : Ambient.top ctx.ambient = some current) :
    policy.call act ctx = Ambient.within none (policy.inNewTransaction act) ctx.entered := by
  have hfound : (Ambient.current : Act Store (PropagationError ε) _) ctx
      = .ok (some current) ctx := by
    rw [← hcurrent]
    rfl
  unfold Policy.call
  rw [bind_of_ok hfound, bind_of_ok (log_entered ctx)]
  simp only [hcreates]

section

variable {policy : Policy} {program : Program ε α} {ctx plain : Context Store} {millis : UInt32}
  {noted : List Noted} {a : α}

/-- The current transaction is hidden while a program runs in a new one. -/
theorem hidden_finishes (hcreatable : Creatable policy.settings millis ctx.world)
    (hrun : program.act (Context.ofWorld ctx.world) = .ok (noted, a) plain)
    (hroom : program.Throughout Store.HasRoom (Context.ofWorld ctx.world)) :
    Finishes (Context.Overdue (ctx.world.deadlineOf millis))
      (Ambient.within none (policy.inNewTransaction program.act)) ctx.entered
      (fun x ctx' => x = (noted, a) ∧ ctx'.world.Shows plain.world.hives.timeless) := by
  let hidden : Context Store :=
    ⟨ctx.entered.world.note (.trace "enter ambient scope"), none :: ctx.ambient, ctx.shared⟩
  have hworld : ∃ journal, hidden.world = { ctx.world with journal := journal } := ⟨_, rfl⟩
  have hnew := inNewTransaction_finishes policy hworld hcreatable hrun hroom
  have henter : (Ambient.enter none : Act Store (PropagationError ε) Unit) ctx.entered
      = .ok () hidden := rfl
  refine Finishes.of_eq (within_eq henter) (hnew.ensuring keeps_leave ?_)
  intro x ctx' h
  have hentry : Ambient.top ctx'.ambient = none := by
    rw [h.2.1]
    rfl
  refine ends_bind (ends_get ?_)
  rw [hentry]
  exact Or.inr ⟨h.1, h.2.2⟩

theorem call_finishes
    (hpolicy : policy.propagation = .requiresNew ∨
      policy.propagation = .required ∧ Ambient.top ctx.ambient = none)
    (hcreatable : Creatable policy.settings millis ctx.world)
    (hrun : program.act (Context.ofWorld ctx.world) = .ok (noted, a) plain)
    (hroom : program.Throughout Store.HasRoom (Context.ofWorld ctx.world)) :
    Finishes (Context.Overdue (ctx.world.deadlineOf millis)) (policy.call program.act) ctx
      (fun x ctx' => x = (noted, a) ∧ ctx'.world.Shows plain.world.hives.timeless) := by
  cases hcurrent : Ambient.top ctx.ambient with
  | none =>
    have hworld : ∃ journal, ctx.entered.world = { ctx.world with journal := journal } :=
      ⟨_, rfl⟩
    have hnew := inNewTransaction_finishes policy hworld hcreatable hrun hroom
    refine Finishes.of_eq (call_of_none (hpolicy.imp_right And.left) hcurrent) ?_
    exact hnew.mono (fun _ _ h => ⟨h.1, h.2.2⟩)
  | some current =>
    have hcreates : policy.propagation = .requiresNew := by
      rcases hpolicy with hcreates | ⟨_, hnone⟩
      · exact hcreates
      · exact absurd hcurrent (by rw [hnone]; simp)
    exact Finishes.of_eq (call_of_current hcreates hcurrent)
      (hidden_finishes hcreatable hrun hroom)

end

/-- A policy that creates a transaction, with the current one hidden, is transparent: if a program
    ends with a value when it is run in no transaction, and the time of the new transaction is not
    over by the end, the policy ends with the same value. The steps of the program have been
    answered alike, errors included, and the live trees are the same up to times. -/
theorem new_transaction_is_transparent (policy : Policy) (program : Program ε α)
    {ctx created plain : Context Store} {t : Transaction} {noted : List Noted} {a : α}
    (hpolicy : policy.propagation = .requiresNew ∨
      policy.propagation = .required ∧ Ambient.top ctx.ambient = none)
    (hcreate : Transaction.create policy.settings.timeout policy.settings.description ctx
      = .ok t created)
    (hrun : program.act (Context.ofWorld ctx.world) = .ok (noted, a) plain)
    (hroom : program.Throughout Store.HasRoom (Context.ofWorld ctx.world))
    (hin_time : ∀ r, created.world.record? t.handle = some r →
      ¬ Late r.deadline (endState (policy.call program.act) ctx).world) :
    ∃ ctx', policy.call program.act ctx = .ok (noted, a) ctx' ∧
      ctx'.world.hives.timeless = plain.world.hives.timeless := by
  rcases (create_ends policy.settings ctx).ok hcreate with ⟨millis, hbegun⟩
  have hends := call_finishes hpolicy hbegun.creatable hrun hroom
  -- The deadline is known before the transaction is, from the clock and the settings.
  have hnot_late : ¬ Context.Overdue (ctx.world.deadlineOf millis)
      (endState (policy.call program.act) ctx) := by
    have hrecord : created.world.record? t.handle
        = some (.fresh millis policy.settings.description created.world.clock.now) := by
      rw [hbegun.world.record, if_pos rfl]
    have hdeadline : ctx.world.deadlineOf millis = (TransactionRecord.fresh millis
        policy.settings.description created.world.clock.now).deadline := by
      rw [hbegun.world.clock]
      rfl
    rw [hdeadline]
    exact hin_time _ hrecord
  rcases hends.value hnot_late with ⟨x, ctx', hcall, rfl, hshows⟩
  exact ⟨ctx', hcall, hshows⟩

/-- Creates a key, asks for a value that is not there yet, and writes it when that has failed. -/
def noteTaking (l : Location) : Program RegistryError UInt32 :=
  .step l .create fun _ =>
    .step l (.getDword "Pages") fun
      | .ok pages => .done (.ok pages)
      | .error _ => .step l (.set "Pages" (.dword 7)) fun _ => .step l (.getDword "Pages") .done

/-- A store on which time passes. -/
def slowStore : Store :=
  Store.fresh ⟨0, [5, 5, 5, 5, 5]⟩

/-- A policy whose transactions last a second. -/
def brief : Policy :=
  ⟨.requiresNew, ⟨{ Duration.zero with secs := 1 }, none⟩⟩

/-- Where notes are taken. -/
def notes : Location := ⟨.currentUser, ⟨["Notes"]⟩⟩

theorem noteTaking_outside :
    Ends (noteTaking notes).act (Context.ofWorld slowStore)
      (fun x plain => x.2 = 7 ∧ plain.world.hives.contains notes = true) (fun _ _ => False) := by
  decide +kernel

theorem brief_created :
    Ends (Transaction.create brief.settings.timeout brief.settings.description)
      (Context.ofWorld slowStore)
      (fun t created => ∀ r ∈ created.world.record? t.handle, r.deadline = some 1000000005)
      (fun _ _ => False) := by
  decide +kernel

theorem transparent_of_noteTaking :
    ∃ noted ctx',
      brief.call (noteTaking notes).act (Context.ofWorld slowStore) = .ok (noted, 7) ctx' ∧
      ctx'.world.hives.contains notes = true := by
  cases hcreate : Transaction.create brief.settings.timeout brief.settings.description
      (Context.ofWorld slowStore) with
  | error e created => exact (brief_created.error hcreate).elim
  | ok t created =>
    cases hrun : (noteTaking notes).act (Context.ofWorld slowStore) with
    | error e plain => exact (noteTaking_outside.error hrun).elim
    | ok x plain =>
      rcases x with ⟨noted, pages⟩
      rcases noteTaking_outside.ok hrun with ⟨hseven, hcontains⟩
      have hpages : pages = 7 := hseven
      subst hpages
      have hcall := new_transaction_is_transparent brief (noteTaking notes) (Or.inl rfl) hcreate
        hrun (by decide +kernel)
        (by
          intro r hr hlate
          rcases hlate with ⟨due, hdue, hcome⟩
          rw [brief_created.ok hcreate r hr, Option.some.injEq] at hdue
          subst hdue
          exact absurd hcome (by decide +kernel))
      rcases hcall with ⟨ctx', hcall, hsame⟩
      refine ⟨noted, ctx', hcall, ?_⟩
      rw [← Hives.contains_timeless, hsame, Hives.contains_timeless]
      exact hcontains

end TransactionalRegistry
