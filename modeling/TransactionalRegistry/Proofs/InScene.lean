import TransactionalRegistry.Proofs.Inside
import TransactionalRegistry.Proofs.Paths
import TransactionalRegistry.Proofs.Seeing

/-!
# Work in a scene

Work that makes calls on keys by the current route has an end that can be told beforehand, as long
as the transaction of the route stays active; what is told may speak of the answer and of the store
that the work leaves behind. If the transaction is found to be over in the middle of the work, then
it is over at the end as well, and nothing is told.

So whoever knows that the transaction is still active when the work is done knows how the work has
ended. The rules below put such tellings together along the way in which work is put together.

## Main definitions

* `Context.Sees`, `Context.scene`: The trees in view, and the scene that they make.
* `Act.Tells`: An act ends as told, unless the transaction of its route is lost.
* `Act.Undisturbed`: The transaction that was current when an act started is active when it is done.
* `Store.Lasting`: A property that goes by the trees and the protected places alone.
* `Store.RoomForKey`: The next handle is not that of a root key.
* `Scene.opening`, `Scene.reading`: How opening a key, and reading from it, ends in a scene.
* `Scene.Held`: A key that could be opened is open, with or without room for its handle.

## Theorems

* `Act.Tells.bind`, `Act.Tells.attempt_bind`, `Act.Tells.mapError`, `Act.Tells.after_log`,
  `Act.Tells.closing`: How acts are put together.
* `Act.Tells.told_at`, `Act.Tells.told_in`: An act that is undisturbed has ended as told.
* `Registry.tells_openAt_held`, `Registry.tells_openAt`: Opening the key at a location.
* `Registry.tells_with_held`, `Registry.tells_with_key`, `Registry.tells_reading`: Operations that
  work with an open key.
-/

namespace TransactionalRegistry

open Scene (Lost)

variable {ε ε' α β : Type} {t : Option TransactionHandle}

/-- A property of stores that goes by the trees and the protected places alone. -/
def Store.Lasting (P : Store → Prop) : Prop :=
  ∀ s s' : Store, s'.hives = s.hives → s'.transactions = s.transactions →
    s'.protectedPlaces = s.protectedPlaces → P s → P s'

theorem Scene.lasting_at (c : Scene) : Store.Lasting c.At :=
  fun _ _ hhives htransactions hprotected h => h.of_same hhives htransactions hprotected

theorem Scene.lasting_becomes (c : Scene) (m : Mutation) : Store.Lasting (c.Becomes m) := by
  rintro s s' hhives htransactions hprotected ⟨now, h, happly, hscene⟩
  exact ⟨now, h, happly, hscene.of_same hhives htransactions hprotected⟩

theorem Store.Lasting.const_and {P : Store → Prop} (h : Lasting P) (p : Prop) :
    Lasting (fun s => p ∧ P s) :=
  fun s s' hhives htransactions hprotected hp =>
    ⟨hp.1, h s s' hhives htransactions hprotected hp.2⟩

/-- The transaction of the current route is over. -/
def Context.Astray (t : Option TransactionHandle) (ctx : Context Timeline) : Prop :=
  ctx.route = ⟨t⟩ ∧ Lost t ctx.world.store

/-- What holds at the end of an act that was made by the route of `t`: it has lost its transaction,
    or `Q` holds of its end and of the store that is left behind. -/
def Context.Told (t : Option TransactionHandle) (Q : Store → Prop) (ctx : Context Timeline) :
    Prop :=
  ctx.route = ⟨t⟩ ∧ (Lost t ctx.world.store ∨ Q ctx.world.store)

namespace Context

variable {ctx ctx' : Context Timeline} {h h' : Hives}

/-- The trees in view: those of the transaction that is current, or else the live ones. -/
def Sees (ctx : Context Timeline) (h : Hives) : Prop :=
  ctx.world.store.viewOf ctx.route.transaction = some h

/-- The scene of a context in which some trees are in view. -/
def scene (ctx : Context Timeline) (h : Hives) : Scene :=
  ⟨ctx.route.transaction, h, ctx.world.store.protectedPlaces⟩

theorem Sees.scene_at (hsees : ctx.Sees h) : (ctx.scene h).At ctx.world.store :=
  ⟨hsees, rfl⟩

theorem sees_of_scene (hroute : ctx'.route = ctx.route)
    (hscene : ((ctx.scene h).with h').At ctx'.world.store) : ctx'.Sees h' := by
  rw [Sees, hroute]
  exact hscene.view

end Context

namespace Act

/-- Made by the route of `t` in a store of which `P` holds, an act ends as `Q` tells, unless its
    transaction is over by then; and if it was over before, it still is. -/
structure Tells (t : Option TransactionHandle) (P : Store → Prop) (act : Act Timeline ε α)
    (Q : Except (Failure ε) α → Store → Prop) : Prop where
  lost : Keeps (Context.Astray t) act
  told : ∀ ctx : Context Timeline, ctx.route = ⟨t⟩ → P ctx.world.store →
    Ends act ctx (fun a => Context.Told t (Q (.ok a)))
      (fun failure => Context.Told t (Q (.error failure)))

/-- The transaction that was current when the act started is active when it is done; without a
    current transaction, nothing is asked. -/
def Undisturbed (act : Act Timeline ε α) (ctx : Context Timeline) : Prop :=
  ((endState act ctx).world.store.viewOf ctx.route.transaction).isSome

instance (act : Act Timeline ε α) (ctx : Context Timeline) : Decidable (act.Undisturbed ctx) :=
  inferInstanceAs (Decidable (_ = true))

variable {P P' : Store → Prop} {act : Act Timeline ε α}
  {Q Q' : Except (Failure ε) α → Store → Prop}

theorem astray_of_told {ctx : Context Timeline} {Q : Store → Prop} (h : ctx.Told t Q) :
    ctx.Astray t ∨ (ctx.route = ⟨t⟩ ∧ Q ctx.world.store) :=
  h.2.imp (fun hlost => ⟨h.1, hlost⟩) (fun hQ => ⟨h.1, hQ⟩)

theorem told_of_astray {ctx : Context Timeline} {Q : Store → Prop} (h : ctx.Astray t) :
    ctx.Told t Q :=
  ⟨h.1, Or.inl h.2⟩

theorem Tells.mono (h : Tells t P act Q) (hP : ∀ s, P' s → P s) (hQ : ∀ r s, Q r s → Q' r s) :
    Tells t P' act Q' where
  lost := h.lost
  told ctx hroute hp := (h.told ctx hroute (hP _ hp)).mono
    (fun _ _ htold => ⟨htold.1, htold.2.imp_right (hQ _ _)⟩)
    (fun _ _ htold => ⟨htold.1, htold.2.imp_right (hQ _ _)⟩)

theorem Tells.mono_pre (h : Tells t P act Q) (hP : ∀ s, P' s → P s) : Tells t P' act Q :=
  h.mono hP (fun _ _ hq => hq)

theorem Tells.mono_post (h : Tells t P act Q) (hQ : ∀ r s, Q r s → Q' r s) : Tells t P act Q' :=
  h.mono (fun _ hp => hp) hQ

/-- What is known beforehand and has nothing to do with the store is known afterwards. -/
theorem Tells.knowing (h : Tells t P act Q) (p : Prop) :
    Tells t (fun s => P s ∧ p) act (fun r s => Q r s ∧ p) where
  lost := h.lost
  told ctx hroute hp := (h.told ctx hroute hp.1).mono
    (fun _ _ htold => ⟨htold.1, htold.2.imp_right (⟨·, hp.2⟩)⟩)
    (fun _ _ htold => ⟨htold.1, htold.2.imp_right (⟨·, hp.2⟩)⟩)

/-- An act that is undisturbed has ended as told. -/
theorem Tells.told_at (h : Tells t P act Q) {ctx : Context Timeline} (hroute : ctx.route = ⟨t⟩)
    (hundisturbed : act.Undisturbed ctx) (hp : P ctx.world.store) :
    Q (outcome act ctx) (endState act ctx).world.store := by
  have hend := Ends.outcome (P := fun r ctx' => Context.Told t (Q r) ctx') (h.told ctx hroute hp)
  refine hend.2.resolve_left (fun hlost => ?_)
  rw [Undisturbed, hroute, hlost] at hundisturbed
  exact absurd hundisturbed (by simp)

theorem Tells.route_at (h : Tells t P act Q) {ctx : Context Timeline} (hroute : ctx.route = ⟨t⟩)
    (hp : P ctx.world.store) : (endState act ctx).route = ⟨t⟩ :=
  (Ends.outcome (P := fun r ctx' => Context.Told t (Q r) ctx') (h.told ctx hroute hp)).1

/-- The same for the route of the context. -/
theorem Tells.told_in {ctx : Context Timeline} (h : Tells ctx.route.transaction P act Q)
    (hundisturbed : act.Undisturbed ctx) (hp : P ctx.world.store) :
    Q (outcome act ctx) (endState act ctx).world.store ∧ (endState act ctx).route = ctx.route :=
  ⟨h.told_at rfl hundisturbed hp, h.route_at rfl hp⟩

/-- What was to be seen when an undisturbed act was done was to be seen before it. -/
theorem Tells.seen_before (h : Tells t P act Q) {ctx : Context Timeline}
    (hroute : ctx.route = ⟨t⟩) (hundisturbed : act.Undisturbed ctx) :
    ∃ view, ctx.world.store.viewOf t = some view := by
  rw [← Option.isSome_iff_exists]
  by_contra hnone
  -- What is lost before stays lost, and then the act would not be undisturbed.
  have hlost : Lost t ctx.world.store := by
    rw [Lost, ← Option.not_isSome_iff_eq_none]
    exact hnone
  have hend := h.lost.endState ⟨hroute, hlost⟩
  rw [Undisturbed, hroute, hend.2] at hundisturbed
  exact absurd hundisturbed (by simp)

/-! ## Ends that are given by a result -/

theorem mapError_eq_ok {result : Except ε α} {a : α} :
    result.mapError Failure.error = .ok a ↔ result = .ok a := by
  cases result <;> simp [Except.mapError]

theorem mapError_eq_error {result : Except ε α} {e : ε} :
    result.mapError Failure.error = .error (.error e) ↔ result = .error e := by
  cases result <;> simp [Except.mapError]

theorem mapError_ne_panic {result : Except ε α} {message : String} :
    result.mapError Failure.error ≠ .error (.panic message) := by
  cases result <;> simp [Except.mapError]

/-! ## Rules -/

theorem tells_pure {a : α} (h : ∀ s, P s → Q (.ok a) s) : Tells t P (pure a) Q where
  lost := keeps_pure a
  told _ hroute hp := ends_pure ⟨hroute, Or.inr (h _ hp)⟩

theorem tells_throw {failure : Failure ε} (h : ∀ s, P s → Q (.error failure) s) :
    Tells t P (throw failure) Q where
  lost := keeps_throw failure
  told _ hroute hp := ends_throw ⟨hroute, Or.inr (h _ hp)⟩

theorem tells_ofExcept {result : Except ε α}
    (h : ∀ s, P s → Q (result.mapError .error) s) : Tells t P (Act.ofExcept result) Q := by
  cases result with
  | ok a => exact tells_pure h
  | error e => exact tells_throw h

/-- The rule for a step followed by the rest. -/
theorem Tells.bind {m : Act Timeline ε β} {f : β → Act Timeline ε α}
    {R : Except (Failure ε) β → Store → Prop} (h : Tells t P m R)
    (hok : ∀ b, Tells t (R (.ok b)) (f b) Q)
    (herror : ∀ failure s, R (.error failure) s → Q (.error failure) s) :
    Tells t P (m >>= f) Q where
  lost := h.lost.bind (fun b => (hok b).lost)
  told ctx hroute hp := by
    refine (h.told ctx hroute hp).bind ?_ ?_
    · intro b ctx' htold
      -- The rest goes astray where the step did, and is told by what the step has left otherwise.
      rcases astray_of_told htold with hastray | ⟨hroute', hr⟩
      · exact ((hok b).lost ctx' hastray).mono (fun _ _ h => told_of_astray h)
          (fun _ _ h => told_of_astray h)
      · exact (hok b).told ctx' hroute' hr
    · exact fun failure ctx' htold => ⟨htold.1, htold.2.imp_right (herror _ _)⟩

/-- The rule for a step whose error is turned into an answer, followed by the rest. -/
theorem Tells.attempt_bind {m : Act Timeline ε β} {f : Except ε β → Act Timeline ε' α}
    {R : Except (Failure ε) β → Store → Prop} {Q : Except (Failure ε') α → Store → Prop}
    (h : Tells t P m R) (hok : ∀ b, Tells t (R (.ok b)) (f (.ok b)) Q)
    (herror : ∀ e, Tells t (R (.error (.error e))) (f (.error e)) Q)
    (hpanic : ∀ message s, R (.error (.panic message)) s → Q (.error (.panic message)) s) :
    Tells t P (m.attempt >>= f) Q := by
  -- An attempt answers with the result, and fails with nothing but a panic.
  refine Tells.bind (R := fun r s => match r with
      | .ok result => R (result.mapError .error) s
      | .error (.error _) => False
      | .error (.panic message) => R (.error (.panic message)) s) ?_ ?_ ?_
  · refine ⟨h.lost.attempt, fun ctx hroute hp => ends_attempt ((h.told ctx hroute hp).mono ?_ ?_)⟩
    · exact fun _ _ htold => htold
    · intro failure ctx' htold
      cases failure with
      | error e => exact htold
      | panic message => exact htold
  · intro result
    cases result with
    | ok b => exact hok b
    | error e => exact herror e
  · intro failure s hr
    cases failure with
    | error e => exact hr.elim
    | panic message => exact hpanic message s hr

theorem Tells.mapError {f : ε → ε'} {Q : Except (Failure ε') α → Store → Prop}
    (h : Tells t P act (fun r => Q (r.mapError (Failure.map f)))) :
    Tells t P (act.mapError f) Q where
  lost := h.lost.mapError f
  told ctx hroute hp := ends_mapError ((h.told ctx hroute hp).mono (fun _ _ htold => htold)
    (fun _ _ htold => htold))

theorem store_logged (entry : LogEntry) (ctx : Context Timeline) :
    (ctx.logged entry).world.store = ctx.world.store.note entry :=
  Timeline.store_after ctx.world (.note entry)

theorem tells_log (entry : LogEntry) (h : ∀ s, P s → P (s.note entry)) :
    Tells t P (Act.log entry : Act Timeline ε Unit) (fun r s => r = .ok () ∧ P s) where
  lost ctx hastray := ends_log ⟨hastray.1, by rw [store_logged]; exact hastray.2⟩
  told ctx hroute hp := ends_log ⟨hroute, Or.inr ⟨rfl, by
    rw [store_logged]
    exact h _ hp⟩⟩

/-- The rule for an entry in the log, followed by the rest. -/
theorem Tells.after_log (h : Tells t P act Q) (entry : LogEntry)
    (hP : ∀ s, P s → P (s.note entry)) : Tells t P (do Act.log entry; act) Q :=
  (tells_log entry hP).bind (fun _ => h.mono_pre (fun _ hs => hs.2))
    (fun _ _ hs => absurd hs.1 (by simp))

/-- A call on a key, when its end is told by the store. -/
theorem tells_call {call : Call} {Q : Except (Failure NativeError) call.Answer → Store → Prop}
    (hkey : call.key?.isSome) (h : ∀ s, P s → Ends (Store.perform call) s
      (fun answer s' => Lost t s' ∨ Q (.ok answer) s')
      (fun e s' => Lost t s' ∨ Q (.error (.error e)) s')) :
    Tells t P (Act.call call) Q where
  lost ctx hastray := by
    have hlost := (Store.perform_keeps_lost hkey).endState hastray.2
    -- A call on a key, whatever its end, leaves lost what was lost.
    rw [← Timeline.store_call] at hlost
    refine (Context.ends_call_after call ctx).mono ?_ ?_
    · rintro _ _ ⟨_, rfl⟩
      exact ⟨hastray.1, hlost⟩
    · rintro _ _ ⟨_, _, _, rfl⟩
      exact ⟨hastray.1, hlost⟩
  told ctx hroute hp := by
    have hend := h _ hp
    refine (Context.ends_call_after call ctx).mono ?_ ?_
    · rintro answer _ ⟨hanswer, rfl⟩
      refine ⟨hroute, ?_⟩
      change Lost t (ctx.world.after (.call call)).store ∨ Q _ (ctx.world.after (.call call)).store
      rw [Timeline.store_call]
      exact hend.ok (eq_of_outcome hanswer)
    · rintro _ _ ⟨e, rfl, herror, rfl⟩
      refine ⟨hroute, ?_⟩
      change Lost t (ctx.world.after (.call call)).store ∨ Q _ (ctx.world.after (.call call)).store
      rw [Timeline.store_call]
      exact hend.error (eq_of_outcome_error herror)

/-- The current route is that of the transaction. -/
theorem tells_route {f : Route → Act Timeline ε α} (h : Tells t P (f ⟨t⟩) Q) :
    Tells t P (Route.current >>= f) Q where
  lost ctx hastray := by
    have hrun : (Route.current : Act Timeline ε Route) ctx = .ok ⟨t⟩ ctx :=
      congrArg (EStateM.Result.ok · ctx) hastray.1
    unfold Ends
    rw [bind_of_ok hrun]
    exact h.lost ctx hastray
  told ctx hroute hp := by
    have hrun : (Route.current : Act Timeline ε Route) ctx = .ok ⟨t⟩ ctx :=
      congrArg (EStateM.Result.ok · ctx) hroute
    unfold Ends
    rw [bind_of_ok hrun]
    exact h.told ctx hroute hp

/-! ## Opening and closing -/

/-- Closing a key takes nothing away from what lasts. -/
theorem tells_closeKey (key : KeyHandle) (h : Store.Lasting P) :
    Tells t P (Registry.closeKey key : Act Timeline ε Unit) (fun r s => r = .ok () ∧ P s) := by
  unfold Registry.closeKey
  have hcall : Tells t P (Act.call (.closeKey key))
      (fun r s => (∀ message, r ≠ .error (.panic message)) ∧ P s) := by
    refine tells_call rfl (fun s hp => (Store.closeKey_ends key s).mono ?_ ?_)
    · rintro _ s' (⟨_, rfl⟩ | ⟨_, _, rfl⟩)
      · exact Or.inr ⟨by simp, hp⟩
      · exact Or.inr ⟨by simp, h s _ rfl rfl rfl hp⟩
    · rintro e s' ⟨_, _, rfl, _⟩
      exact Or.inr ⟨by simp, hp⟩
  refine hcall.attempt_bind (fun _ => tells_pure (fun s hs => ⟨rfl, hs.2⟩)) (fun e => ?_)
    (fun message s hs => absurd rfl (hs.1 message))
  exact (tells_log _ (fun s hp => h s _ rfl rfl rfl hp)).mono_pre (fun s hs => hs.2)

/-- The rule for work with a key that is closed afterwards. -/
theorem Tells.closing {key : KeyHandle} (h : Tells t P act Q)
    (hlasting : ∀ r, Store.Lasting (Q r)) : Tells t P (Registry.closing key act) Q where
  lost := h.lost.ensuring (tells_closeKey (P := fun _ => True) key (fun _ _ _ _ _ h => h)).lost
  told ctx hroute hp := by
    have hact := Ends.outcome (P := fun r ctx' => Context.Told t (Q r) ctx')
      (h.told ctx hroute hp)
    have hclose : Tells t (Q (outcome act ctx)) (Registry.closeKey key : Act Timeline Empty Unit)
        (fun r s => r = .ok () ∧ Q (outcome act ctx) s) :=
      tells_closeKey key (hlasting (outcome act ctx))
    refine ends_of_outcome (P := fun r ctx' => Context.Told t (Q r) ctx') ?_
    have hclosed : Ends (Registry.closeKey key : Act Timeline Empty Unit) (endState act ctx)
        (fun _ => Context.Told t (Q (outcome act ctx))) (fun _ _ => False) := by
      rcases Registry.closeKey_run key (endState act ctx) with ⟨ctx', hrun, _⟩
      unfold Ends
      rw [hrun]
      -- A key is closed in any case; what was told before is told after that.
      rcases astray_of_told hact with hastray | ⟨hroute', hq⟩
      · exact told_of_astray ((hclose.lost _ hastray).ok hrun)
      · have htold := (hclose.told _ hroute' hq).ok hrun
        exact ⟨htold.1, htold.2.imp_right (·.2)⟩
    rw [Registry.closing, outcome_ensuring (hclosed.mono (fun _ _ _ => trivial)
      (fun _ _ hnever => hnever)), endState_ensuring]
    exact hclosed.endState_total

end Act

/-! ## Keys that are opened -/

/-- The next handle is not that of a root key, so a key that gets it is found under it. -/
def Store.RoomForKey (s : Store) : Prop :=
  (KeyHandle.mk s.nextHandle).root? = none

theorem Timeline.Below.roomForKey {l : Timeline} (h : l.Below) : l.store.RoomForKey :=
  KeyHandle.root?_eq_none h.next

namespace Scene

/-- How opening the key at a location ends: it must be there, and must not be protected if it is to
    be opened with a right that changes it. -/
def opening (c : Scene) (l : Location) (access : Access) : Except RegistryError Unit :=
  if c.view.contains l then
    if access.isModifying && c.isProtected l then .error (.accessDenied l.text) else .ok ()
  else .error (.noSuchKey l.text)

/-- How reading from the key at a location ends: it must be there, and then `read` tells. -/
def reading {α : Type} (c : Scene) (l : Location) (read : Node → Except RegistryError α) :
    Except RegistryError α :=
  match c.view.find? l with
  | none => .error (.noSuchKey l.text)
  | some n => read n

/-- The scene is what there is in a store, and a key is open in it. -/
structure Holding (c : Scene) (key : KeyHandle) (k : OpenKey) (s : Store) : Prop where
  scene : c.At s
  opened : s.opened key = some k

/-- A key that could be opened is open, in the scene. Its handle denotes it; or, if there was no
    `room` for the handle, that may be one of a root key. -/
structure Held (c : Scene) (l : Location) (access : Access) (room : Prop) (key : KeyHandle)
    (s : Store) : Prop where
  scene : c.At s
  opening : c.opening l access = .ok ()
  opened : ∃ k, s.opened key = some k ∧
    (k = ⟨l, access, c.transaction⟩ ∨ ¬ room ∧ ∃ root, k = OpenKey.ofRoot root)

variable {c : Scene} {l : Location} {access : Access}

/-- Where there was room for its handle, the key that is held is the one at the location. -/
theorem Held.opened_of_room {room : Prop} {key : KeyHandle} {s : Store}
    (h : c.Held l access room key s) (hroom : room) :
    s.opened key = some ⟨l, access, c.transaction⟩ := by
  rcases h.opened with ⟨k, hk, rfl | ⟨hnone, -⟩⟩
  · exact hk
  · exact absurd hroom hnone

theorem opening_of_found {n : Node} (hreading : access.isModifying = false)
    (hfound : c.view.find? l = some n) : c.opening l access = .ok () := by
  rw [opening, Hives.contains, hfound, Option.isSome_some, if_pos rfl, hreading, Bool.false_and,
    if_neg Bool.false_ne_true]

/-- A missing key cannot be opened, whatever the right. -/
theorem opening_of_missing (hmissing : c.view.find? l = none) :
    c.opening l access = .error (.noSuchKey l.text) := by
  rw [opening, Hives.contains, hmissing, Option.isSome_none, if_neg Bool.false_ne_true]

/-- A key that could be opened is there. -/
theorem found_of_opening (h : c.opening l access = .ok ()) : ∃ n, c.view.find? l = some n := by
  rw [← Option.isSome_iff_exists]
  rw [opening] at h
  split at h
  · next hthere => exact hthere
  · exact absurd h (by simp)

end Scene

namespace Registry

open Act (Tells)

variable {c : Scene} {l : Location} {access : Access}
  {Q : Except (Failure RegistryError) α → Store → Prop}

/-- A key is opened as the scene tells. Its handle denotes it; if there is no room for the handle,
    then that may be one of a root key. -/
theorem tells_openAt_held (hl : l.path.Sound) (access : Access) (room : Prop) :
    Tells c.transaction (fun s => c.At s ∧ (room → s.RoomForKey)) (openAt ⟨c.transaction⟩ l access)
      (fun r s => match r with
        | .ok key => c.Held l access room key s
        | .error failure => ∃ e, failure = .error e ∧ c.opening l access = .error e ∧ c.At s) := by
  refine Tells.mapError (Tells.after_log (Act.tells_call rfl (fun s hs => ?_)) _
    (fun s hs => ⟨hs.1.of_same rfl rfl rfl, hs.2⟩))
  rcases hs with ⟨hscene, hroom⟩
  refine (Store.openKey_in l.root l.path.text access (Location.below_text hl) hscene).mono ?_ ?_
  · rintro key s' ⟨hthere, hadmits, hscene', rfl, hkeys⟩
    refine Or.inr ⟨hscene', ?_, ?_⟩
    · rw [Scene.opening, if_pos hthere, if_neg (Bool.eq_false_iff.mp hadmits)]
    · cases hroot : (KeyHandle.mk s.nextHandle).root? with
      | none => exact ⟨_, Timeline.opened_of_keys hroot hkeys, Or.inl rfl⟩
      | some root =>
        -- The handle of a root key denotes that key and never the one opened, whatever is in the
        -- table.
        refine ⟨_, by rw [Store.opened, hroot], Or.inr ⟨fun hroomy => ?_, root, rfl⟩⟩
        rw [hroom hroomy] at hroot
        cases hroot
  · -- The call fails where the key is missing or protected; the text of either error is the
    -- location.
    rintro e s' (hlost | ⟨hscene', ⟨hmissing, rfl⟩ | ⟨hthere, hdenied, rfl⟩⟩)
    · exact Or.inl hlost
    · refine Or.inr ⟨_, rfl, ?_, hscene'⟩
      rw [Scene.opening, if_neg (Bool.eq_false_iff.mp hmissing)]
      rfl
    · refine Or.inr ⟨_, rfl, ?_, hscene'⟩
      rw [Scene.opening, if_pos hthere, if_pos hdenied]
      rfl

/-- If there is room for the handle of a key, then the key is found under it. -/
theorem tells_openAt (hl : l.path.Sound) (access : Access) (room : Prop) :
    Tells c.transaction (fun s => c.At s ∧ (room → s.RoomForKey)) (openAt ⟨c.transaction⟩ l access)
      (fun r s => c.At s ∧ match r with
        | .ok key => c.opening l access = .ok () ∧
            (room → s.opened key = some ⟨l, access, c.transaction⟩)
        | .error failure => ∃ e, failure = .error e ∧ c.opening l access = .error e) := by
  refine (tells_openAt_held hl access room).mono_post (fun r s hs => ?_)
  cases r with
  | ok key => exact ⟨hs.scene, hs.opening, hs.opened_of_room⟩
  | error failure =>
    rcases hs with ⟨e, rfl, hopening, hscene⟩
    exact ⟨hscene, e, rfl, hopening⟩

/-- An operation that opens a key, works with it and closes it. -/
theorem tells_with_held (hl : l.path.Sound) (room : Prop)
    {f : Route → KeyHandle → Act Timeline RegistryError α} (hlasting : ∀ r, Store.Lasting (Q r))
    (hf : ∀ key, Tells c.transaction (c.Held l access room key) (f ⟨c.transaction⟩ key) Q)
    (herror : ∀ e s, c.opening l access = .error e → c.At s → Q (.error (.error e)) s) :
    Tells c.transaction (fun s => c.At s ∧ (room → s.RoomForKey))
      (do let route ← Route.current
          let key ← openAt route l access
          closing key (f route key)) Q := by
  refine Act.tells_route (Tells.bind (tells_openAt_held hl access room) ?_ ?_)
  · exact fun key => Tells.closing (hf key) hlasting
  · rintro failure s ⟨e, rfl, hopening, hscene⟩
    exact herror e s hopening hscene

/-- The same where there is room for the handle. -/
theorem tells_with_key (hl : l.path.Sound) {f : Route → KeyHandle → Act Timeline RegistryError α}
    (hlasting : ∀ r, Store.Lasting (Q r))
    (hf : ∀ key, Tells c.transaction
      (fun s => c.Holding key ⟨l, access, c.transaction⟩ s ∧ c.opening l access = .ok ())
      (f ⟨c.transaction⟩ key) Q)
    (herror : ∀ e s, c.opening l access = .error e → c.At s → Q (.error (.error e)) s) :
    Tells c.transaction (fun s => c.At s ∧ s.RoomForKey)
      (do let route ← Route.current
          let key ← openAt route l access
          closing key (f route key)) Q := by
  refine (tells_with_held hl True hlasting (fun key => (hf key).mono_pre ?_)
    herror).mono_pre (fun s hs => ⟨hs.1, fun _ => hs.2⟩)
  exact fun s hs => ⟨⟨hs.scene, hs.opened_of_room trivial⟩, hs.opening⟩

/-- An operation that opens a key to read from it leaves the scene as it is. -/
theorem tells_reading (hl : l.path.Sound) (hreading : access.isModifying = false)
    {f : Route → KeyHandle → Act Timeline RegistryError α} {read : Node → Except RegistryError α}
    (hf : ∀ key n, Tells c.transaction
      (fun s => c.Holding key ⟨l, access, c.transaction⟩ s ∧ c.view.find? l = some n)
      (f ⟨c.transaction⟩ key) (fun r s => r = (read n).mapError .error ∧ c.At s)) :
    Tells c.transaction (fun s => c.At s ∧ s.RoomForKey)
      (do let route ← Route.current
          let key ← openAt route l access
          closing key (f route key))
      (fun r s => r = (c.reading l read).mapError .error ∧ c.At s) := by
  refine tells_with_key hl (fun r => c.lasting_at.const_and _)
    (fun key => ?_) ?_
  · -- Which key is found is known from the scene; that what is lost stays lost holds of any.
    have hread : ∀ n, c.view.find? l = some n → c.reading l read = read n := by
      intro n hfound
      rw [Scene.reading, hfound]
    refine ⟨(hf key (Node.empty "" 0)).lost, fun ctx hroute hs => ?_⟩
    cases hfound : c.view.find? l with
    | none =>
      rw [Scene.opening_of_missing hfound] at hs
      exact absurd hs.2 (by simp)
    | some n =>
      rw [hread n hfound]
      exact (hf key n).told ctx hroute ⟨hs.1, hfound⟩
  · -- A key that is there is opened for reading, so opening it failed only where it is missing.
    intro e s hopening hscene
    cases hfound : c.view.find? l with
    | none =>
      rw [Scene.opening_of_missing hfound] at hopening
      refine ⟨?_, hscene⟩
      rw [Scene.reading, hfound, ← Except.error.inj hopening]
      rfl
    | some n => exact absurd hopening (by rw [Scene.opening_of_found hreading hfound]; simp)

/-! ## Calls through an open key -/

variable {key : KeyHandle} {k : OpenKey} {named : Option TransactionHandle}

/-- A log entry leaves a key open. -/
theorem holding_note (s : Store) (entry : LogEntry) (h : c.Holding key k s) :
    c.Holding key k (s.note entry) where
  scene := h.scene.of_same rfl rfl rfl
  opened := h.opened

/-- A call that reads from an open key is answered from the trees of the scene, and leaves the key
    open. -/
theorem tells_read {call : Call} {read : Node → Except NativeError call.Answer}
    (hkey : call.key?.isSome) (hperform : Store.perform call = Store.withNode key access named read)
    (hright : k.access.contains access = true) (hbound : named.or k.transaction = c.transaction) :
    Tells c.transaction (c.Holding key k) (Act.call call)
      (fun r s => r = (Store.readAt c.view k.location read).mapError .error ∧
        c.Holding key k s) := by
  refine Act.tells_call hkey (fun s hs => ?_)
  -- A sight of the trees changes no open key.
  have hopened : ∀ s', Store.Sighted c s s' → s'.opened key = some k := by
    intro s' hsight
    rw [Store.opened, hsight.look.keys]
    exact hs.opened
  rw [hperform]
  refine (Store.withNode_in read hs.scene hs.opened hright hbound).mono ?_ ?_
  · rintro a s' ⟨hread, hsight⟩
    exact Or.inr ⟨by rw [hread]; rfl, hsight.scene, hopened s' hsight⟩
  · rintro e s' (hlost | ⟨hread, hsight⟩)
    · exact Or.inl hlost
    · exact Or.inr ⟨by rw [hread]; rfl, hsight.scene, hopened s' hsight⟩

end Registry

end TransactionalRegistry
