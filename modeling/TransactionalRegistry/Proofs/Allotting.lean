import Mathlib.Data.List.Nodup
import TransactionalRegistry.Proofs.Isolation

/-!
# Handing out handles

Key handles and transaction handles are drawn from one counter, and every entry that is put into one
of the two tables of open handles is put there under the handle that was just drawn. An action draws
one handle at most. So as long as the counter does not go back, no handle is handed out twice,
whatever its kind, and an entry that was taken out of its table never comes back.

## Main definitions

* `AnyHandle`: A handle of either kind.
* `Call.handsOut?`: The handle that a call hands out.
* `Store.OpenUnder`: Something is open under a handle.
* `Store.handedOut`, `Store.handles`: What an action, and what some actions hand out.
* `Store.Allots`: What an action does to the tables of open handles.
* `Store.Allotted`: What holds of the handles that have been handed out.

## Theorems

* `Store.perform_unknown`: A call on a key opens no transaction.
* `Store.after_allots`: An action allots what it hands out and nothing else.
* `Store.Allotted.step`: Handles that are handed out are new.
* `Store.Allotted.disjoint`: Open keys and open transactions have different handles.
* `Store.Allots.stays_closed`: What was closed stays closed.
-/

namespace TransactionalRegistry

open Store (handleStep)

/-- A handle of either kind. -/
inductive AnyHandle where
  | key (key : KeyHandle)
  | transaction (transaction : TransactionHandle)
  deriving DecidableEq, Repr

/-- The number of a handle. -/
def AnyHandle.raw : AnyHandle → UInt64
  | .key k => k.raw
  | .transaction t => t.raw

/-- The handle that a successful call hands out. -/
def Call.handsOut? : (call : Call) → call.Answer → Option AnyHandle
  | .createTransaction .., t => some (.transaction t)
  | .openKey .., key => some (.key key)
  | .createKey .., answer => some (.key answer.1)
  | _, _ => none

namespace Store

/-- Something is open under a handle. -/
def OpenUnder (s : Store) : AnyHandle → Prop
  | .key key => (Table.find? s.keys key).isSome
  | .transaction t => (s.record? t).isSome

/-- The handle that an action hands out. Only calls that succeed hand out any. -/
def handedOut (s : Store) : Action → Option AnyHandle
  | .call call =>
    match outcome (perform call) s with
    | .ok answer => call.handsOut? answer
    | .error _ => none
  | _ => none

/-- The handles that some actions hand out, one after the other. -/
def handles (s : Store) : List Action → List AnyHandle
  | [] => []
  | action :: rest => (s.handedOut action).toList ++ (s.after action).handles rest

theorem handles_append (s : Store) (actions more : List Action) :
    s.handles (actions ++ more) =
      s.handles actions ++ (actions.foldl Store.after s).handles more := by
  induction actions generalizing s with
  | nil => rfl
  | cons action rest ih =>
    rw [List.cons_append, handles, handles, ih, List.append_assoc]
    rfl

/-! ## Opening no transaction -/

section

variable {s s' : Store}

theorem Changed.unknown {transaction : Option TransactionHandle} {m : Mutation}
    (h : Changed transaction m s s') {t : TransactionHandle} (ht : s.record? t = none) :
    s'.record? t = none := by
  rcases h with ⟨trees, changed, hsees, _, rfl⟩
  cases transaction with
  | none => exact ht
  | some t' =>
    rcases hsees with ⟨r, hr, _⟩
    rw [installed_some hr, record?_insert]
    by_cases hsame : t' = t
    · -- Only a transaction that is known sees anything to change.
      rw [hsame, ht] at hr
      exact absurd hr (by simp)
    · rw [if_neg hsame]
      exact ht

/-- A call on a key opens no transaction. -/
theorem perform_unknown (call : Call) (hkey : call.key?.isSome) {t : TransactionHandle}
    (ht : s.record? t = none) : (endState (perform call) s).record? t = none := by
  refine Ends.endState (P := fun s' : Store => s'.record? t = none) ?_
  refine (perform_ends call hkey s).mono ?_ (fun _ _ h => h.1.unknown t ht)
  rintro answer s' ⟨s₁, s₂, hobs, hchange, hsame⟩
  have hlooked := hobs.1.unknown t ht
  rw [record?, hsame.transactions]
  rcases hchange with ⟨_, rfl⟩ | ⟨m, _, hchanged⟩
  · exact hlooked
  · exact hchanged.unknown hlooked

end

/-! ## One action -/

/-- What an action does to the tables of open handles: nothing gets into them but what it hands out,
    and that under the number that the counter stood at. -/
structure Allots (handed : Option AnyHandle) (s s' : Store) : Prop where
  nextHandle : s'.nextHandle = s.nextHandle ∨ s'.nextHandle = s.nextHandle + handleStep
  drawn : ∀ x, handed = some x → x.raw = s.nextHandle ∧ s'.nextHandle = s.nextHandle + handleStep
  found : ∀ x, s'.OpenUnder x → s.OpenUnder x ∨ handed = some x

section

variable {s s' : Store}

/-- A key that is open was open before, if none was opened. -/
theorem OpenUnder.key_before (hnone : OpensNone s s') {key : KeyHandle}
    (h : s'.OpenUnder (.key key)) : s.OpenUnder (.key key) := by
  obtain ⟨k, hk⟩ := Option.isSome_iff_exists.mp h
  exact Option.isSome_iff_exists.mpr ⟨k, hnone.found hk⟩

/-- A transaction that is open was open before, if none became known. -/
theorem OpenUnder.transaction_before
    (hrecords : ∀ t, s.record? t = none → s'.record? t = none) {t : TransactionHandle}
    (h : s'.OpenUnder (.transaction t)) : s.OpenUnder (.transaction t) := by
  change (s.record? t).isSome
  cases hr : s.record? t with
  | some r => rfl
  | none =>
    have hopen : (s'.record? t).isSome = true := h
    rw [hrecords t hr] at hopen
    exact hopen

/-- An action that hands nothing out puts nothing into the tables. -/
theorem allots_none (hkeys : OpensNone s s')
    (hrecords : ∀ t, s.record? t = none → s'.record? t = none) : Allots none s s' := by
  refine ⟨hkeys.nextHandle, fun x hx => absurd hx (by simp), fun x hopen => Or.inl ?_⟩
  cases x with
  | key key => exact hopen.key_before hkeys
  | transaction t => exact hopen.transaction_before hrecords

theorem Looked.allots {transaction : Option TransactionHandle} (h : Looked transaction s s') :
    Allots none s s' :=
  allots_none h.opensNone h.unknown

theorem allots_of_decided {s₁ : Store} {t : TransactionHandle} {r record : TransactionRecord}
    (hchecked : Checked t s s₁) (h : Decided t r record s₁ s') : Allots none s s' := by
  refine allots_none (opensNone_of_decided hchecked h) (fun t' hnone => ?_)
  have hunknown := hchecked.look.unknown t' hnone
  by_cases ht : t = t'
  · -- A transaction that is decided is known.
    rw [← ht, h.found] at hunknown
    exact absurd hunknown (by simp)
  · rw [h.others t' ht]
    exact hunknown

/-- A call on a key hands out the key that it opens, and a transaction never. -/
theorem perform_allots_key (call : Call) (hkey : call.key?.isSome) :
    Ends (perform call) s (fun answer s' => Allots (call.handsOut? answer) s s')
      (fun _ s' => Allots none s s') := by
  have hunknown : Ends (perform call) s
      (fun _ s' => ∀ t, s.record? t = none → s'.record? t = none)
      (fun _ s' => ∀ t, s.record? t = none → s'.record? t = none) :=
    ends_of_endState (P := fun s' : Store => ∀ t, s.record? t = none → s'.record? t = none)
      (fun _ hnone => perform_unknown call hkey hnone)
  refine ((perform_opens call hkey s).and hunknown).mono ?_ (fun _ _ h => allots_none h.1 h.2)
  rintro answer s' ⟨hafter, hrecords⟩
  -- Of the calls on keys only the two that open keys hand anything out.
  have hhands : call.handsOut? answer = (call.handle? answer).map .key := by
    cases call <;> first | rfl | exact absurd hkey (by simp [Call.key?])
  unfold HandlesAfter at hafter
  rw [hhands]
  cases hhandle : call.handle? answer with
  | none =>
    rw [hhandle] at hafter
    exact allots_none hafter hrecords
  | some key =>
    rw [hhandle] at hafter
    obtain ⟨-, hopens⟩ := hafter
    obtain ⟨l, access, hkeys⟩ := hopens.keys
    refine ⟨Or.inr hopens.nextHandle, ?_, ?_⟩
    · rintro x ⟨⟩
      exact ⟨by rw [hopens.handle]; rfl, hopens.nextHandle⟩
    · intro x hopen
      cases x with
      | transaction t => exact Or.inl (hopen.transaction_before hrecords)
      -- Under another handle there is what there was before the new one went in.
      | key other =>
        by_cases hsame : key = other
        · exact Or.inr (by rw [hsame]; rfl)
        · have hfound : (Table.find? s'.keys other).isSome = true := hopen
          rw [hkeys, Table.find?_insert, if_neg hsame] at hfound
          exact Or.inl hfound

theorem Managed.allots {created : Option TransactionHandle} (h : Managed s created s') :
    Allots (created.map .transaction) s s' := by
  cases h with
  | looked hlook => exact hlook.allots
  | created hcreated =>
    refine ⟨Or.inr hcreated.nextHandle, ?_, ?_⟩
    · rintro x ⟨⟩
      exact ⟨by rw [hcreated.handle]; rfl, hcreated.nextHandle⟩
    · rintro (key | t) hopen
      · -- Opening a transaction draws its handle from the counter that the keys are numbered by
        -- too.
        exact Or.inl (hopen.key_before ⟨Or.inr hcreated.nextHandle, Or.inl hcreated.keys⟩)
      · have hfound : (s'.record? t).isSome = true := hopen
        rw [hcreated.record] at hfound
        split at hfound
        · next hsame => exact Or.inr (by rw [hsame]; rfl)
        · exact Or.inl hfound
  | settled hchecked hsettled _ => exact allots_of_decided hchecked hsettled
  | discarded hchecked hdiscarded _ => exact allots_of_decided hchecked hdiscarded
  | closed _ hkeys _ hnext _ htransactions =>
    refine allots_none ⟨Or.inl hnext, Or.inl hkeys⟩ (fun t' hnone => ?_)
    rw [record?, htransactions, Table.find?_erase]
    exact ite_eq_left_iff.mpr (fun _ => hnone)

/-- A call on a transaction hands out the one that it opens, and a key never. -/
theorem perform_allots_transaction (haligned : s.Aligned) (call : Call) (hkey : call.key? = none) :
    Ends (perform call) s (fun answer s' => Allots (call.handsOut? answer) s s')
      (fun _ s' => Allots none s s') := by
  refine (perform_manages haligned call hkey).mono ?_ (fun _ _ h => h.allots)
  intro answer s' hmanaged
  have hhands : call.handsOut? answer = (call.created? answer).map .transaction := by
    cases call <;> first | rfl | exact absurd hkey (by simp [Call.key?])
  rw [hhands]
  exact hmanaged.allots

/-- An action allots what it hands out and nothing else. -/
theorem after_allots (haligned : s.Aligned) (action : Action) :
    Allots (s.handedOut action) s (s.after action) := by
  cases action with
  | call call =>
    refine Ends.outcome (P := fun (result : Except NativeError call.Answer) s' =>
      Allots (match result with
        | .ok answer => call.handsOut? answer
        | .error _ => none) s s') ?_
    cases hkey : call.key? with
    | some key => exact perform_allots_key call (by rw [hkey]; rfl)
    | none => exact perform_allots_transaction haligned call hkey
  | ask t =>
    have hchecked : Checked t s (s.after (.ask t)) :=
      (transactionState?_ends t s).endState_total
    exact hchecked.look.allots
  | protect l => exact allots_none ⟨Or.inl rfl, Or.inl rfl⟩ (fun _ hnone => hnone)
  | pass time => exact allots_none ⟨Or.inl rfl, Or.inl rfl⟩ (fun _ hnone => hnone)
  | note entry => exact allots_none ⟨Or.inl rfl, Or.inl rfl⟩ (fun _ hnone => hnone)

end

/-! ## Handles that have been handed out -/

/-- What holds of the handles that have been handed out: no two have the same number, the counter
    stands above all of them, and every open handle is one of them. -/
structure Allotted (handles : List AnyHandle) (s : Store) : Prop where
  distinct : (handles.map AnyHandle.raw).Nodup
  below : ∀ x ∈ handles, x.raw.toNat < s.nextHandle.toNat
  listed : ∀ x, s.OpenUnder x → x ∈ handles

section

variable {s s' : Store} {handles : List AnyHandle} {handed : Option AnyHandle} {x : AnyHandle}

/-- The counter moves up by a step at most. -/
theorem Allots.nextHandle_le (h : Allots handed s s') :
    s'.nextHandle.toNat ≤ s.nextHandle.toNat + 4 := by
  rcases h.nextHandle with hnext | hnext
  · rw [hnext]
    omega
  · have hstep : handleStep.toNat = 4 := rfl
    -- Where the counter comes round, it comes round to less.
    rw [hnext, UInt64.toNat_add, hstep]
    exact Nat.mod_le _ _

/-- The counter does not go back, if it has not come round. -/
theorem Allots.up (h : Allots handed s s') (hroom : s.nextHandle.toNat + 4 < UInt64.size) :
    s.nextHandle.toNat ≤ s'.nextHandle.toNat := by
  rcases h.nextHandle with hnext | hnext
  · exact Nat.le_of_eq (congrArg UInt64.toNat hnext.symm)
  · have hstep : handleStep.toNat = 4 := rfl
    have hsum : (s.nextHandle.toNat + 4) % UInt64.size = s.nextHandle.toNat + 4 :=
      Nat.mod_eq_of_lt hroom
    rw [hnext, UInt64.toNat_add, hstep, hsum]
    omega

/-- A handle that is drawn leaves the counter above it, unless that has gone back. -/
theorem Allots.lt_of_drawn (h : Allots handed s s') (hx : handed = some x)
    (hup : s.nextHandle.toNat ≤ s'.nextHandle.toNat) : x.raw.toNat < s'.nextHandle.toNat := by
  obtain ⟨hraw, hnext⟩ := h.drawn x hx
  have hstep : handleStep.toNat = 4 := rfl
  -- The counter has stepped, and it has not come round, so it stands four above the handle.
  have hsum := congrArg UInt64.toNat hnext
  rw [UInt64.toNat_add, hstep] at hsum
  rw [hraw]
  omega

theorem Allotted.step (h : Allotted handles s) (hallots : Allots handed s s')
    (hup : s.nextHandle.toNat ≤ s'.nextHandle.toNat) : Allotted (handles ++ handed.toList) s' where
  distinct := by
    rw [List.map_append, List.nodup_append]
    refine ⟨h.distinct, ?_, ?_⟩
    · cases handed <;> simp
    · -- What was handed out before lies below the counter, and what is handed out now is where
      -- the counter stood.
      intro raw hraw raw' hraw' heq
      obtain ⟨x, hx, rfl⟩ := List.mem_map.mp hraw
      obtain ⟨y, hy, rfl⟩ := List.mem_map.mp hraw'
      have hbelow := h.below x hx
      rw [heq, (hallots.drawn y (Option.mem_toList.mp hy)).1] at hbelow
      exact absurd hbelow (Nat.lt_irrefl _)
  below := by
    intro x hx
    rcases List.mem_append.mp hx with hold | hnew
    · exact Nat.lt_of_lt_of_le (h.below x hold) hup
    · exact hallots.lt_of_drawn (Option.mem_toList.mp hnew) hup
  listed := by
    intro x hopen
    rcases hallots.found x hopen with hold | hnew
    · exact List.mem_append_left _ (h.listed x hold)
    · exact List.mem_append_right _ (Option.mem_toList.mpr hnew)

/-- What is open is under a handle that lies below the counter. -/
theorem Allotted.lt_of_open (h : Allotted handles s) (hopen : s.OpenUnder x) :
    x.raw.toNat < s.nextHandle.toNat :=
  h.below x (h.listed x hopen)

/-- An open key and an open transaction have different numbers. -/
theorem Allotted.disjoint (h : Allotted handles s) {key : KeyHandle} {t : TransactionHandle}
    (hkey : s.OpenUnder (.key key)) (ht : s.OpenUnder (.transaction t)) : key.raw ≠ t.raw := by
  intro hsame
  have heq : AnyHandle.key key = .transaction t :=
    List.inj_on_of_nodup_map h.distinct (h.listed _ hkey) (h.listed _ ht) hsame
  exact absurd heq (by simp)

/-- A handle that was handed out and is closed is not opened again. -/
theorem Allots.stays_closed (h : Allots handed s s') (hbelow : x.raw.toNat < s.nextHandle.toNat)
    (hclosed : ¬ s.OpenUnder x) : ¬ s'.OpenUnder x := by
  intro hopen
  rcases h.found x hopen with hold | hnew
  · exact hclosed hold
  · -- What is handed out has the number that the counter stood at, so it is none of those below.
    rw [(h.drawn x hnew).1] at hbelow
    exact absurd hbelow (Nat.lt_irrefl _)

end

end Store

end TransactionalRegistry
