import Mathlib.Data.List.Induction
import TransactionalRegistry.Proofs.Acts
import TransactionalRegistry.Proofs.Allotting
import TransactionalRegistry.Proofs.LiveTrees

/-!
# Timelines

A timeline is a world that consists of all that has ever happened to a store: the clock that the
store started with and the actions since. It answers a call as the store does that it has led to,
and then the call is one action more. So work on a timeline is work on a store, and the history of
that store is there at every moment of the work; to speak of what happens later is to speak of a
longer timeline.

Handles are drawn from a counter that each action moves on by one step at most. As long as a
timeline is not so long that the counter could have come round, every handle that is handed out is
new.

## Main definitions

* `Timeline`: A new store with a clock, and all that has happened to it since.
* `Timeline.Before`: One timeline is an earlier part of another.
* `Timeline.Noted`: Nothing has happened in between but entries in the log.
* `Timeline.handles`: The handles that have been handed out.
* `Timeline.Roomy`: The counter of handles has not come round.

## Theorems

* `Timeline.perform_ends`, `Timeline.store_call`: A timeline answers as its store.
* `Timeline.Before.grows`, `Timeline.Before.contributions`: Time goes on, transactions are opened,
  and contributions are made.
* `Transcript.noted`, `Transcript.first`: A transcript of a timeline, call by call.
* `Timeline.Roomy.allotted`: Every handle that is handed out is new.
* `Timeline.Roomy.unused`: The next handle denotes no open transaction.
* `Timeline.nextHandle_le`, `Timeline.roomy_of_length`: A short timeline has not drawn many handles.
-/

namespace TransactionalRegistry

open Store (firstHandle)

namespace Chronicle

/-- A move takes neither time back nor the opening of a transaction. -/
theorem grows_move {c c' : Chronicle} (hmove : Moves c c') :
    c.store.clock.now ≤ c'.store.clock.now ∧ c.history.created ≤ c'.history.created := by
  have hcarries : ∀ {c c' : Chronicle}, Carries c c' →
      c.store.clock.now ≤ c'.store.clock.now ∧ c.history.created ≤ c'.history.created :=
    fun h => ⟨h.clock, Nat.le_of_eq h.created.symm⟩
  induction hmove with
  | rest hrests => exact hcarries (carries_of_rests hrests)
  | look _ hobs => exact hcarries (carries_of_observed hobs)
  | change _ _ hchanged => exact hcarries (carries_of_changed hchanged)
  | opened hcreated =>
    -- Opening a transaction reads the clock once, to find the deadline.
    refine ⟨?_, Nat.le_succ _⟩
    rw [hcreated.clock]
    exact Clock.le_read _
  | committed hsettled _ => exact ⟨hsettled.clock, Nat.le_refl _⟩
  | trans _ _ ih ih' => exact ⟨Nat.le_trans ih.1 ih'.1, Nat.le_trans ih.2 ih'.2⟩

/-- What has been contributed is never taken back. -/
theorem contributions_move {c c' : Chronicle} (hmove : Moves c c') :
    c.history.contributions <+: c'.history.contributions := by
  induction hmove with
  | rest _ => exact List.prefix_refl _
  | look transaction _ =>
    simp only [History.contributions_looked, List.prefix_refl]
  | change transaction m _ =>
    -- Without a transaction a change contributes at once; with one, not before the commit.
    cases transaction with
    | none => exact List.prefix_append _ _
    | some t => exact List.prefix_refl _
  | opened _ => exact List.prefix_refl _
  | committed _ _ => exact List.prefix_append _ _
  | trans _ _ ih ih' => exact ih.trans ih'

end Chronicle

/-- A new store with a clock, and all that has happened to it since. -/
structure Timeline where
  clock : Clock
  actions : List Action

namespace Timeline

/-- The store at the end of a timeline, with its history. -/
def chronicle (l : Timeline) : Chronicle :=
  .run l.clock l.actions

/-- The store at the end of a timeline. -/
def store (l : Timeline) : Store :=
  l.chronicle.store

/-- What the calls of a timeline have done. -/
def history (l : Timeline) : History :=
  l.chronicle.history

/-- The timeline with one more action. -/
def after (l : Timeline) (action : Action) : Timeline :=
  { l with actions := l.actions ++ [action] }

/-- The answer of the store, with the call as one action more. -/
def perform (call : Call) : EStateM NativeError Timeline call.Answer := fun l =>
  match outcome (Store.perform call) l.store with
  | .ok answer => .ok answer (l.after (.call call))
  | .error e => .error e (l.after (.call call))

/-- A timeline answers calls and logs as its store does. -/
instance : Native Timeline where
  perform := perform
  log entry l := l.after (.note entry)

variable {l l' l'' : Timeline}

theorem chronicle_after (l : Timeline) (action : Action) :
    (l.after action).chronicle = l.chronicle.step action :=
  Chronicle.run_append l.clock l.actions [action]

theorem store_after (l : Timeline) (action : Action) :
    (l.after action).store = l.store.after action := by
  rw [store, chronicle_after]
  rfl

theorem history_after (l : Timeline) (action : Action) :
    (l.after action).history = l.chronicle.historyAfter action := by
  rw [history, chronicle_after]
  rfl

/-- A timeline answers as its store, and the call becomes its last action. -/
theorem perform_ends (call : Call) (l : Timeline) :
    Ends (Native.perform call) l
      (fun answer l' => outcome (Store.perform call) l.store = .ok answer ∧
        l' = l.after (.call call))
      (fun e l' => outcome (Store.perform call) l.store = .error e ∧
        l' = l.after (.call call)) := by
  change Ends (perform call) l _ _
  unfold Ends perform
  cases outcome (Store.perform call) l.store with
  | ok answer => exact ⟨rfl, rfl⟩
  | error e => exact ⟨rfl, rfl⟩

/-- After a call a timeline has led to the store that the call leaves behind. -/
theorem store_call (call : Call) (l : Timeline) :
    (l.after (.call call)).store = endState (Store.perform call) l.store :=
  store_after l (.call call)

/-- The timeline with some more actions. -/
def extended (l : Timeline) (made : List Action) : Timeline :=
  { l with actions := l.actions ++ made }

theorem extended_nil (l : Timeline) : l.extended [] = l := by
  rw [extended, List.append_nil]

theorem after_extended (l : Timeline) (made : List Action) (action : Action) :
    (l.extended made).after action = l.extended (made ++ [action]) := by
  rw [extended, extended, after, List.append_assoc]

theorem store_extended (l : Timeline) (made : List Action) :
    (l.extended made).store = made.foldl Store.after l.store := by
  rw [store, store, chronicle, chronicle, extended, Chronicle.run_append,
    Chronicle.continued_store]

/-! ## Earlier and later -/

/-- One timeline is an earlier part of another. -/
structure Before (l l' : Timeline) : Prop where
  clock : l'.clock = l.clock
  actions : l.actions <+: l'.actions

theorem Before.refl (l : Timeline) : l.Before l :=
  ⟨rfl, List.prefix_refl _⟩

theorem Before.trans (h : l.Before l') (h' : l'.Before l'') : l.Before l'' :=
  ⟨h'.clock.trans h.clock, h.actions.trans h'.actions⟩

theorem before_after (l : Timeline) (action : Action) : l.Before (l.after action) :=
  ⟨rfl, List.prefix_append _ _⟩

/-- What is later has come from what is earlier. -/
theorem Before.continued (h : l.Before l') :
    ∃ more, l'.chronicle = l.chronicle.continued more := by
  rcases h.actions with ⟨more, hmore⟩
  refine ⟨more, ?_⟩
  rw [chronicle, h.clock, ← hmore, Chronicle.run_append]
  rfl

/-- Time goes on, and transactions are opened, never the other way round. -/
theorem Before.grows (h : l.Before l') :
    l.store.clock.now ≤ l'.store.clock.now ∧ l.history.created ≤ l'.history.created := by
  rcases h.continued with ⟨more, hmore⟩
  rw [store, store, history, history, hmore]
  -- What holds of each move holds of every way from the earlier store to the later one.
  refine Chronicle.continued_moves (P := fun c => l.chronicle.store.clock.now ≤ c.store.clock.now ∧
      l.chronicle.history.created ≤ c.history.created)
    (Chronicle.run_aligned l.clock l.actions) ?_ ⟨Nat.le_refl _, Nat.le_refl _⟩ more
  rintro c c' hmove ⟨hnow, hcreated⟩
  have hgrows := Chronicle.grows_move hmove
  exact ⟨Nat.le_trans hnow hgrows.1, Nat.le_trans hcreated hgrows.2⟩

theorem Before.contributions (h : l.Before l') :
    l.history.contributions <+: l'.history.contributions := by
  rcases h.continued with ⟨more, hmore⟩
  rw [history, history, hmore]
  exact Chronicle.continued_moves
    (P := fun c => l.chronicle.history.contributions <+: c.history.contributions)
    (Chronicle.run_aligned l.clock l.actions)
    (fun c c' hmove hprefix => hprefix.trans (Chronicle.contributions_move hmove))
    (List.prefix_refl _) more

/-- Nothing has happened in between but entries in the log. -/
structure Noted (l l' : Timeline) : Prop where
  before : l.Before l'
  hives : l'.store.hives = l.store.hives
  transactions : l'.store.transactions = l.store.transactions
  keys : l'.store.keys = l.store.keys
  nextHandle : l'.store.nextHandle = l.store.nextHandle
  clock : l'.store.clock = l.store.clock
  history : l'.history = l.history

theorem Noted.refl (l : Timeline) : l.Noted l :=
  ⟨.refl l, rfl, rfl, rfl, rfl, rfl, rfl⟩

theorem Noted.trans (h : l.Noted l') (h' : l'.Noted l'') : l.Noted l'' where
  before := h.before.trans h'.before
  hives := h'.hives.trans h.hives
  transactions := h'.transactions.trans h.transactions
  keys := h'.keys.trans h.keys
  nextHandle := h'.nextHandle.trans h.nextHandle
  clock := h'.clock.trans h.clock
  history := h'.history.trans h.history

theorem noted_after (l : Timeline) (entry : LogEntry) : l.Noted (l.after (.note entry)) := by
  refine ⟨before_after l _, ?_, ?_, ?_, ?_, ?_, history_after l _⟩ <;> rw [store_after] <;> rfl

theorem Noted.record? (h : l.Noted l') (t : TransactionHandle) :
    l'.store.record? t = l.store.record? t := by
  rw [Store.record?, Store.record?, h.transactions]

end Timeline

/-! ## Transcripts -/

namespace Transcript

open Timeline

variable {l l' : Timeline}

/-- Where no call is made, entries are logged and nothing else. -/
theorem noted (h : Transcript l [] l') : l.Noted l' := by
  -- The list of calls is made a variable, since the induction is on the transcript.
  generalize hcalls : ([] : List CallRecord) = calls at h
  induction h with
  | nil w => exact .refl w
  | log entry _ ih => exact (noted_after _ entry).trans (ih hcalls)
  | ok => cases hcalls
  | error => cases hcalls

theorem before {calls : List CallRecord} (h : Transcript l calls l') : l.Before l' := by
  induction h with
  | nil w => exact .refl w
  | log entry _ ih => exact (before_after _ _).trans ih
  | ok hperform _ ih =>
    rcases (perform_ends _ _).ok hperform with ⟨_, rfl⟩
    exact (before_after _ _).trans ih
  | error hperform _ ih =>
    rcases (perform_ends _ _).error hperform with ⟨_, rfl⟩
    exact (before_after _ _).trans ih

/-- The first call of a transcript has the result that the store gives then. -/
theorem first {call : Call} {result : Except NativeError call.Answer} {rest : List CallRecord}
    (h : Transcript l (⟨call, result⟩ :: rest) l') :
    ∃ l₁, l.Noted l₁ ∧ outcome (Store.perform call) l₁.store = result ∧
      Transcript (l₁.after (.call call)) rest l' := by
  generalize hcalls : (⟨call, result⟩ : CallRecord) :: rest = calls at h
  induction h with
  | nil w => cases hcalls
  | log entry _ ih =>
    -- Entries come before the call as long as they are no part of the list.
    rcases ih hcalls with ⟨l₁, hnoted, hresult⟩
    exact ⟨l₁, (noted_after _ entry).trans hnoted, hresult⟩
  | ok hperform hrest _ =>
    cases hcalls
    rcases (perform_ends call _).ok hperform with ⟨houtcome, rfl⟩
    exact ⟨_, .refl _, houtcome, hrest⟩
  | error hperform hrest _ =>
    cases hcalls
    rcases (perform_ends call _).error hperform with ⟨houtcome, rfl⟩
    exact ⟨_, .refl _, houtcome, hrest⟩

end Transcript

/-! ## Handles -/

namespace Timeline

open Store (Allots Allotted)

/-- The handles that have been handed out on a timeline, in order. -/
def handles (l : Timeline) : List AnyHandle :=
  (Store.fresh l.clock).handles l.actions

/-- The counter of handles has not come round: it has never gone back. -/
def Roomy (l : Timeline) : Prop :=
  ∀ l₁ l₂ : Timeline, l₁.Before l₂ → l₂.Before l →
    l₁.store.nextHandle.toNat ≤ l₂.store.nextHandle.toNat

variable {l l' : Timeline}

theorem Roomy.earlier (h : l'.Roomy) (hbefore : l.Before l') : l.Roomy :=
  fun l₁ l₂ hfirst hlast => h l₁ l₂ hfirst (hlast.trans hbefore)

/-- What is before a timeline and one action more is all of that, or before the timeline. -/
theorem before_after_iff {action : Action} :
    l'.Before (l.after action) ↔ l' = l.after action ∨ l'.Before l := by
  constructor
  · -- A prefix of the actions is all of them or does not reach the last one.
    rintro ⟨hclock, hactions⟩
    rcases List.prefix_concat_iff.mp hactions with hall | hless
    · rcases l' with ⟨clock, actions⟩
      cases hclock
      cases hall
      exact Or.inl rfl
    · exact Or.inr ⟨hclock, hless⟩
  · rintro (rfl | hbefore)
    · exact .refl _
    · exact hbefore.trans (before_after l action)

theorem handles_after (l : Timeline) (action : Action) :
    (l.after action).handles = l.handles ++ (l.store.handedOut action).toList := by
  have hstore : l.store = l.actions.foldl Store.after (Store.fresh l.clock) :=
    Chronicle.run_store l.clock l.actions
  rw [handles, after, Store.handles_append, ← hstore]
  simp only [Store.handles, List.append_nil]
  rfl

theorem allots_after (l : Timeline) (action : Action) :
    Allots (l.store.handedOut action) l.store (l.after action).store := by
  rw [store_after]
  exact Store.after_allots (Chronicle.run_aligned l.clock l.actions) action

/-- Every handle that is handed out is new, if the counter has never gone back. -/
theorem allotted_of_up (hup : ∀ (l₁ : Timeline) action, (l₁.after action).Before l →
    l₁.store.nextHandle.toNat ≤ (l₁.after action).store.nextHandle.toNat) :
    Allotted l.handles l.store := by
  rcases l with ⟨clock, actions⟩
  induction actions using List.reverseRecOn with
  | nil =>
    refine ⟨List.nodup_nil, fun x hx => absurd hx (by simp [handles, Store.handles]), ?_⟩
    -- Nothing is open in a new store.
    rintro (key | t) hopen <;> exact absurd hopen (by
      simp [Store.OpenUnder, store, chronicle, Chronicle.run, Chronicle.continued,
        Chronicle.fresh, Store.fresh, Store.record?, Table.find?])
  | append_singleton actions action ih =>
    have hlast := before_after ⟨clock, actions⟩ action
    have hstep := (ih (fun l₁ action' h => hup l₁ action' (h.trans hlast))).step
      (allots_after _ action) (hup _ action (.refl _))
    rw [← handles_after] at hstep
    exact hstep

theorem Roomy.allotted (h : l.Roomy) : Allotted l.handles l.store :=
  allotted_of_up (fun l₁ action hbefore => h _ _ (before_after l₁ action) hbefore)

/-- As long as there is room, the next handle denotes no open transaction. -/
theorem Roomy.unused (h : l.Roomy) : l.store.record? ⟨l.store.nextHandle⟩ = none := by
  cases hr : l.store.record? ⟨l.store.nextHandle⟩ with
  | none => rfl
  | some r =>
    have hopen : l.store.OpenUnder (.transaction ⟨l.store.nextHandle⟩) :=
      Option.isSome_iff_exists.mpr ⟨r, hr⟩
    exact absurd (h.allotted.lt_of_open hopen) (Nat.lt_irrefl _)

/-- An action moves the counter on by the distance between handles at most. -/
theorem nextHandle_le (l : Timeline) :
    l.store.nextHandle.toNat ≤ firstHandle.toNat + 4 * l.actions.length := by
  rcases l with ⟨clock, actions⟩
  induction actions using List.reverseRecOn with
  | nil => exact Nat.le_refl _
  | append_singleton actions action ih =>
    have hstep := (allots_after ⟨clock, actions⟩ action).nextHandle_le
    change (after ⟨clock, actions⟩ action).store.nextHandle.toNat ≤
      firstHandle.toNat + 4 * (actions ++ [action]).length
    rw [List.length_append, List.length_singleton]
    exact Nat.le_trans hstep (Nat.add_le_add_right ih 4)

/-- The counter has not come round if it would not have even with a handle drawn by every action. -/
theorem roomy_of_length (h : firstHandle.toNat + 4 * l.actions.length < UInt64.size) : l.Roomy := by
  rcases l with ⟨clock, actions⟩
  induction actions using List.reverseRecOn with
  | nil =>
    rintro ⟨_, _⟩ ⟨_, _⟩ ⟨rfl, hfirst⟩ ⟨rfl, hlast⟩
    cases List.prefix_nil.mp hlast
    cases List.prefix_nil.mp hfirst
    exact Nat.le_refl _
  | append_singleton actions action ih =>
    have hroom : firstHandle.toNat + 4 * actions.length + 4 < UInt64.size := by
      rwa [List.length_append, List.length_singleton] at h
    have hroomy := ih (Nat.lt_of_le_of_lt (Nat.le_add_right _ 4) hroom)
    have hle := nextHandle_le ⟨clock, actions⟩
    have hup := (allots_after ⟨clock, actions⟩ action).up
      (Nat.lt_of_le_of_lt (Nat.add_le_add_right hle 4) hroom)
    -- Of two moments, either the later one is now or both lie in the past.
    intro l₁ l₂ hfirst hlast
    change l₂.Before (after ⟨clock, actions⟩ action) at hlast
    rcases before_after_iff.mp hlast with rfl | hearlier
    · rcases before_after_iff.mp hfirst with rfl | hearlier
      · exact Nat.le_refl _
      · exact Nat.le_trans (hroomy l₁ _ hearlier (.refl _)) hup
    · exact hroomy l₁ l₂ hfirst hearlier

end Timeline

end TransactionalRegistry
