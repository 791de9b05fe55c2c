import BloopClient.Lifecycle

/-!
# Connections live by the rules

One specification for each function that touches the wire: the stage it needs,
the stage it leaves for each way it can end, and that whatever it adds to the
trace belongs to its own connection.
-/

namespace BloopClient
open Tracelib Fut

variable {env : Env} {c : ℕ} {role : Role} {frame : RawMessage} {bound : UInt32}
  {s s₁ q : Stage} {config : ConnectionConfig} {localIp : IpAddr} {hello : ServerHandshake}

theorem of_mapError_ok {ε ε' α : Type} {f : ε → ε'} {r : Except ε α} {a : α}
    (h : r.mapError f = .ok a) : r = .ok a := by
  cases r with
  | error e => cases h
  | ok b => cases h; rfl

-- ════════════════════════════════════════════════════════════════════════
-- Frames
-- ════════════════════════════════════════════════════════════════════════

/-- The ways an exchange can end: the reply was read, the frame went out whole
but its reply was not read, or the frame itself was cut short. -/
inductive Exchanged (connection : Connection) (role : Role) (frame : RawMessage) (t : Trace) :
    Outcome FrameError RawMessage → Trace → Prop
  | replied {raw} : Exchanged connection role frame t (.ok raw)
      (.read connection.id role connection.maxPayloadLen (some raw) ::
        .wrote connection.id role frame .complete :: t)
  | unanswered {r} (hr : ∀ raw, r ≠ .ok raw) : Exchanged connection role frame t r
      (.read connection.id role connection.maxPayloadLen none ::
        .wrote connection.id role frame .complete :: t)
  | unsent {r d} (hr : ∀ raw, r ≠ .ok raw) : Exchanged connection role frame t r
      (.wrote connection.id role frame (.broken d) :: t)

theorem requestRaw_exchanged (env : Env) (connection : Connection) (role : Role)
    (frame : RawMessage) (t : Trace) :
    Exchanged connection role frame t (connection.requestRaw env role frame t).1
      (connection.requestRaw env role frame t).2 := by
  unfold Connection.requestRaw
  rw [bind_apply]
  unfold writeFrame
  cases env.net.writeFrame t connection.id frame with
  | complete =>
    dsimp only
    unfold readFrame
    split
    · exact .replied
    · exact .unanswered (by simp)
    · exact .unanswered (by simp)
    · exact .unanswered (by simp)
  | failed error delivered => exact .unsent (by simp)
  | dropped delivered => exact .unsent (by simp)
  | elapsed delivered => exact .unsent (by simp)

theorem writeFrame_grows (hr : role.isRequest = false) :
    Respects (Grows c) (writeFrame env c role frame) := by
  intro t
  unfold writeFrame
  split <;> exact (Extends.refl t).cons ⟨rfl,hr⟩

theorem requestRaw_grows (connection : Connection) (hr : role.isRequest = false) :
    Respects (Grows connection.id) (connection.requestRaw env role frame) := by
  intro t
  have hx := requestRaw_exchanged env connection role frame t
  revert hx
  rcases connection.requestRaw env role frame t with ⟨r,t'⟩
  rintro (_ | _ | _)
  · exact ((Extends.refl t).cons ⟨rfl,hr⟩).cons ⟨rfl,hr⟩
  · exact ((Extends.refl t).cons ⟨rfl,hr⟩).cons ⟨rfl,hr⟩
  · exact (Extends.refl t).cons ⟨rfl,hr⟩

theorem ping_grows (env : Env) (connection : Connection) :
    Respects (Grows connection.id) (connection.ping env) :=
  (Respects.lift _).bind fun _ => ((requestRaw_grows connection rfl).mapErr).bind fun _ =>
    Respects.lift _

theorem quit_grows (connection : Connection) (t : Trace) :
    Grows connection.id t (connection.quit env t) := by
  unfold Connection.quit
  split
  · exact writeFrame_grows rfl t
  · exact Extends.refl t

theorem hook_grows (env : Env) (connection : Connection) (hook : Hook) :
    Respects (Grows connection.id) (hook.run env connection) := by
  induction hook with
  | done result =>
    cases result with
    | ok _ => exact Respects.pure ()
    | error e => exact Respects.fail e
  | stall => exact fun t => Extends.refl t
  | request message next ih =>
    intro t
    have h : Grows connection.id t (Session.requestRaw env connection message t).2 :=
      (requestRaw_grows connection rfl).mapErr t
    simp only [Hook.run]
    split
    · next raw t' hr => rw [hr] at h; exact h.trans (ih _ t')
    · next error t' hr => rw [hr] at h; exact h.trans (ih _ t')
    · next t' hr => rw [hr] at h; exact h.trans (ih _ t')
    · next t' hr => rw [hr] at h; exact h

theorem await_trace {α : Type} (step : Trace → Wait α) : Respects Eq (await step) := by
  intro t
  unfold await
  split <;> rfl

/-- Nothing is observed of a dial but its result. -/
theorem dial_trace : Respects Eq (dial env config) :=
  (await_trace _).bind fun _ => (Respects.lift _).bind fun _ =>
    (await_trace _).bind fun _ => (Respects.lift _).bind fun _ =>
    (await_trace _).bind fun _ => (Respects.lift _).bind fun localIp =>
    (Respects.lift _).bind fun _ =>
    (await_trace _).bind fun _ => (Respects.lift _).bind fun _ => Respects.pure localIp

theorem negotiateVersion_grows (connection : Connection) :
    Respects (Grows connection.id) (negotiateVersion env connection) := by
  refine (Respects.lift _).bind fun _ => (requestRaw_grows connection rfl).mapErr.bind fun raw => ?_
  split
  · split
    · exact Respects.fail _
    · exact Respects.pure _
  · exact Respects.fail _
  · exact Respects.fail _

theorem authenticate_grows (connection : Connection) :
    Respects (Grows connection.id) (authenticate env connection config localIp) := by
  refine (Respects.lift _).bind fun _ => (requestRaw_grows connection rfl).mapErr.bind fun raw => ?_
  split
  · exact Respects.pure _
  · exact Respects.pure _
  · exact Respects.fail _

theorem establish_grows : Respects (Grows c) (establish env c config localIp) := by
  refine (negotiateVersion_grows ⟨c,Capabilities.none,1024⟩).bind fun caps =>
    (authenticate_grows ⟨c,caps,1024⟩).bind fun authenticated => ?_
  split <;> exact Respects.pure _

theorem connect_grows : Respects (Grows c) (connect env c config) := by
  have hd : Respects (Grows c) (dial env config) := by
    intro t
    rw [← dial_trace t]
    exact Extends.refl t
  refine hd.bind fun ip => Respects.bind (m := Fut.modify _) ?_ fun _ => ?_
  · exact fun t => (Extends.refl t).cons rfl
  · intro t
    have h : Grows c t (establish env c config ip t).2 := establish_grows t
    simp only [Fut.cleanup]
    split
    · exact h
    · exact h.cons rfl

-- ════════════════════════════════════════════════════════════════════════
-- Stages
-- ════════════════════════════════════════════════════════════════════════

theorem writeFrame_life (hok : Step env c s (.wrote c role frame .complete) s₁)
    (hbad : ∀ d, Step env c s (.wrote c role frame (.broken d)) q) :
    Triple (Life env c · s) (writeFrame env c role frame) (fun _ t => Life env c t s₁)
      (Life env c · q) := by
  intro t h
  unfold writeFrame
  split
  · exact h.step hok
  · exact h.step (hbad _)
  · exact h.step (hbad _)
  · exact h.step (hbad _)

/-- The reply just read is left for the caller to judge. -/
theorem readFrame_life (hnone : Step env c s (.read c role bound none) q) :
    Triple (Life env c · s) (readFrame env c role bound)
      (fun raw t => ∃ past, t = .read c role bound (some raw) :: past ∧ Life env c past s)
      (Life env c · q) := by
  intro t h
  unfold readFrame
  split
  · exact ⟨t,rfl,h⟩
  · exact h.step hnone
  · exact h.step hnone
  · exact h.step hnone

theorem requestRaw_life (connection : Connection) (frame : RawMessage)
    (hok : Step env connection.id s (.wrote connection.id role frame .complete) s₁)
    (hbad : ∀ d, Step env connection.id s (.wrote connection.id role frame (.broken d)) q)
    (hnone : Step env connection.id s₁
      (.read connection.id role connection.maxPayloadLen none) q) :
    Triple (Life env connection.id · s) (connection.requestRaw env role frame)
      (fun raw t => ∃ past,
        t = .read connection.id role connection.maxPayloadLen (some raw) :: past ∧
          Life env connection.id past s₁)
      (Life env connection.id · q) :=
  (writeFrame_life hok hbad).bind fun _ => readFrame_life hnone

/-- A connection that may be closed without having been handed over. -/
def Closable (s : Stage) : Prop :=
  (∃ config localIp, s = .opened config localIp) ∨
    (∃ config localIp hello, s = .greeted config localIp hello) ∨ ∃ config, s = .failing config

theorem Closable.step (h : Closable s) : Step env c s (.closed c) (.closed false) := by
  obtain ⟨config,localIp,rfl⟩ | ⟨config,localIp,hello,rfl⟩ | ⟨config,rfl⟩ := h
  · exact .closeOpened
  · exact .closeGreeted
  · exact .closeFailing

/-- A reply that is no welcome ends the negotiation. -/
theorem fail_unwelcome {e : ConnectError} {raw : RawMessage} {post : Capabilities → Trace → Prop}
    (hw : ∀ hello, ¬ Welcome env raw hello) :
    Triple (fun t => ∃ past, t = .read c .handshake 1024 (some raw) :: past ∧
        Life env c past (.greeting config localIp)) (fail e) post
      (fun t => ∃ s, Closable s ∧ Life env c t s) := by
  refine Triple.fail ?_
  rintro _ ⟨past,rfl,h⟩
  refine ⟨_,.inr (.inr ⟨config,rfl⟩),h.step (.unwelcome ?_)⟩
  rintro _ hello ⟨⟩
  exact hw hello

/-- Version negotiation ends with the handshake of a server that accepted
version 3, or with a connection only fit to be closed. -/
theorem negotiateVersion_life (connection : Connection) (hb : connection.maxPayloadLen = 1024) :
    Triple (Life env connection.id · (.opened config localIp)) (negotiateVersion env connection)
      (fun caps t => ∃ hello, hello.capabilities = caps ∧
        Life env connection.id t (.greeted config localIp hello))
      (fun t => ∃ s, Closable s ∧ Life env connection.id t s) := by
  refine Triple.bind (q := fun frame t =>
      env.protocol.encodeClientHandshake ⟨3,3⟩ = .ok frame ∧
        Life env connection.id t (.opened config localIp))
    (Triple.lift ?_ ?_) fun frame => Triple.of_pure fun hf => ?_
  · exact fun frame t hr h => ⟨of_mapError_ok hr,h⟩
  · exact fun t h => ⟨_,.inl ⟨config,localIp,rfl⟩,h⟩
  · refine Triple.bind (Triple.mapErr ((requestRaw_life _ _ (.greet hf) (fun _ => .greetBroken hf)
      (by rw [hb]; exact .unwelcome (by simp))).consequence (fun _ h => h) (fun _ _ h => h)
      (fun t h => ⟨_,.inr (.inr ⟨config,rfl⟩),h⟩))) fun raw => ?_
    rw [hb]
    split
    · next handshake hd =>
      split
      · next hv =>
        refine fail_unwelcome ?_
        rintro hello ⟨hw,hv'⟩
        rw [hd] at hw
        cases hw
        exact hv hv'
      · next hv =>
        refine Triple.pure ?_
        rintro _ ⟨past,rfl,h⟩
        exact ⟨handshake,rfl,h.step (.welcome ⟨hd,not_not.mp hv⟩)⟩
    · next hd =>
      refine fail_unwelcome ?_
      rintro hello ⟨hw,_⟩
      rw [hd] at hw
      cases hw
    · next error _ hd =>
      refine fail_unwelcome ?_
      rintro hello ⟨hw,_⟩
      rw [hd] at hw
      cases hw

/-- Authentication ends with the server's acceptance, with its rejection of the
credentials, or with a connection only fit to be closed. -/
theorem authenticate_life (connection : Connection) (hb : connection.maxPayloadLen = 1024) :
    Triple (Life env connection.id · (.greeted config localIp hello))
      (authenticate env connection config localIp)
      (fun authenticated t => Life env connection.id t
        (if authenticated then .accepted config hello else .refused config))
      (fun t => ∃ s, Closable s ∧ Life env connection.id t s) := by
  refine Triple.bind (q := fun frame t => Credentials env config localIp frame ∧
        Life env connection.id t (.greeted config localIp hello))
    (Triple.lift ?_ ?_) fun frame => Triple.of_pure fun hf => ?_
  · exact fun frame t hr h => ⟨of_mapError_ok hr,h⟩
  · exact fun t h => ⟨_,.inr (.inl ⟨config,localIp,hello,rfl⟩),h⟩
  · refine Triple.bind (Triple.mapErr ((requestRaw_life _ _ (.authenticate hf)
      (fun _ => .authenticateBroken hf)
      (by rw [hb]; exact .unaccepted (by simp))).consequence (fun _ h => h) (fun _ _ h => h)
      (fun t h => ⟨_,.inr (.inr ⟨config,rfl⟩),h⟩))) fun raw => ?_
    rw [hb]
    split
    · next hd =>
      refine Triple.pure ?_
      rintro _ ⟨past,rfl,h⟩
      exact h.step (.accept hd)
    · next hd =>
      refine Triple.pure ?_
      rintro _ ⟨past,rfl,h⟩
      exact h.step (.reject hd)
    · next error hne hd =>
      refine Triple.fail ?_
      rintro _ ⟨past,rfl,h⟩
      refine ⟨_,.inr (.inr ⟨config,rfl⟩),h.step (.unaccepted ?_)⟩
      rintro _ ⟨⟩
      constructor
      · intro ha
        rw [Acceptance,hd] at ha
        cases ha
      · intro hj
        rw [Rejection,hd] at hj
        cases hj
        exact hne rfl

/-- What `connect` leaves for each outcome it returns. -/
def Established (env : Env) (c : ℕ) (config : ConnectionConfig) :
    ConnectOutcome → Trace → Prop
  | .connected connection, t => ∃ hello, connection = ⟨c,hello.capabilities,env.maxPayloadLen⟩ ∧
      Life env c t (.accepted config hello)
  | .invalidCredentials, t => Life env c t (.refused config)

theorem establish_life :
    Triple (Life env c · (.opened config localIp)) (establish env c config localIp)
      (Established env c config) (fun t => ∃ s, Closable s ∧ Life env c t s) := by
  refine (negotiateVersion_life ⟨c,_,1024⟩ rfl).bind fun caps =>
    Triple.of_exists fun hello => Triple.of_pure ?_
  rintro rfl
  refine (authenticate_life ⟨c,hello.capabilities,1024⟩ rfl).bind
    fun authenticated => ?_
  cases authenticated with
  | false => exact Triple.pure fun t h => h
  | true => exact Triple.pure fun t h => ⟨hello,rfl,h⟩

/-- A call of `connect` hands over an accepted connection, or has closed the
stream, or never had one. -/
theorem connect_life :
    Triple (Life env c · (.dialing config)) (connect env c config)
      (fun outcome t => match outcome with
        | .connected _ => Established env c config outcome t
        | .invalidCredentials => Life env c t (.closed true))
      (fun t => Life env c t (.closed false) ∨ Life env c t (.dialing config)) := by
  have hd : Triple (Life env c · (.dialing config)) (dial env config)
      (fun _ t => Life env c t (.dialing config))
      (fun t => Life env c t (.closed false) ∨ Life env c t (.dialing config)) := by
    intro t h
    rw [← dial_trace t]
    cases (dial env config t).1 with
    | ok ip => exact h
    | err e => exact .inr h
    | dropped => exact .inr h
    | elapsed => exact .inr h
  refine hd.bind fun localIp => Triple.bind (q := fun _ t => Life env c t (.opened config localIp))
    (Triple.modify fun t h => h.step .opened) fun _ => ?_
  intro t h
  have he := establish_life t h
  simp only [Fut.cleanup]
  cases hr : (establish env c config localIp t).1 with
  | ok outcome =>
    rw [hr] at he
    cases outcome with
    | connected connection => exact he
    | invalidCredentials => exact Life.step he .closeRefused
  | err e =>
    rw [hr] at he
    obtain ⟨s,hs,hl⟩ := he
    exact .inl (hl.step hs.step)
  | dropped =>
    rw [hr] at he
    obtain ⟨s,hs,hl⟩ := he
    exact .inl (hl.step hs.step)
  | elapsed =>
    rw [hr] at he
    obtain ⟨s,hs,hl⟩ := he
    exact .inl (hl.step hs.step)

/-- A hook leaves a connected connection, whatever went wrong inside it. -/
theorem hook_life (connection : Connection) (ho : env.onConnect.isSome)
    (hm : connection.maxPayloadLen = env.maxPayloadLen) (hook : Hook) {t : Trace}
    (h : Life env connection.id t (.connected config hello)) :
    Life env connection.id (hook.run env connection t).2 (.connected config hello) := by
  induction hook generalizing t with
  | done result =>
    cases result with
    | ok _ => exact h
    | error e => exact h
  | stall => exact h
  | request message next ih =>
    have hr : Life env connection.id (Session.requestRaw env connection message t).2
        (.connected config hello) := by
      have hx := Triple.mapErr (f := fun _ => RequestError.disconnected)
        (requestRaw_life connection message (.sessionWrite ho)
          (fun _ => .sessionBroken ho) (by rw [hm]; exact .sessionRead)) t h
      revert hx
      cases (Fut.mapErr (fun _ => RequestError.disconnected)
        (connection.requestRaw env .session message) t).1 with
      | ok raw =>
        rintro ⟨past,hp,hl⟩
        rw [hm] at hp
        exact hp ▸ hl.step .sessionRead
      | err e => exact id
      | dropped => exact id
      | elapsed => exact id
    simp only [Hook.run]
    split
    · next raw t' he => rw [he] at hr; exact ih _ hr
    · next error t' he => rw [he] at hr; exact ih _ hr
    · next t' he => rw [he] at hr; exact ih _ hr
    · next t' he => rw [he] at hr; exact hr

/-- A stored connection that is about to be closed. -/
def Ending (s : Stage) : Prop :=
  (∃ config hello, s = .ready config hello) ∨ (∃ config, s = .failing config) ∨
    ∃ config, s = .quitted config

theorem Ending.step (h : Ending s) : Step env c s (.closed c) (.closed false) := by
  obtain ⟨config,hello,rfl⟩ | ⟨config,rfl⟩ | ⟨config,rfl⟩ := h
  · exact .closeReady
  · exact .closeFailing
  · exact .closeQuitted

theorem Role.asks_ping : Role.ping.asks := trivial

theorem Role.asks_request (response : ℕ) : (Role.request response).asks := trivial

/-- The exchange of a stored connection keeps it, or spoils it. -/
theorem ask_life (connection : Connection) (frame : RawMessage) (hr : role.asks)
    (hm : connection.maxPayloadLen = env.maxPayloadLen) :
    Triple (Life env connection.id · (.ready config hello))
      (connection.requestRaw env role frame)
      (fun _ t => Life env connection.id t (.ready config hello))
      (fun t => Life env connection.id t (.failing config)) := by
  refine (requestRaw_life _ _ (.ask hr) (fun _ => .askBroken hr)
    (by rw [hm]; exact .noReply)).consequence (fun _ h => h) ?_ (fun _ h => h)
  rintro raw _ ⟨past,rfl,h⟩
  rw [hm]
  exact h.step .reply

theorem ping_life (connection : Connection) (hm : connection.maxPayloadLen = env.maxPayloadLen) :
    Triple (Life env connection.id · (.ready config hello)) (connection.ping env)
      (fun _ t => Life env connection.id t (.ready config hello))
      (fun t => ∃ s, Ending s ∧ Life env connection.id t s) := by
  have hstop : ∀ t, Life env connection.id t (.ready config hello) →
      ∃ s, Ending s ∧ Life env connection.id t s :=
    fun t h => ⟨_,.inl ⟨config,hello,rfl⟩,h⟩
  refine Triple.bind (Triple.lift (fun _ _ _ h => h) hstop) fun frame =>
    Triple.bind (Triple.mapErr ((ask_life connection frame Role.asks_ping hm).consequence
      (fun _ h => h) (fun _ _ h => h) fun t h => ⟨_,.inr (.inl ⟨config,rfl⟩),h⟩)) fun raw =>
    Triple.lift (fun _ _ _ h => h) hstop

/-- Announcing the disconnect ends a stored connection. -/
theorem quit_life (connection : Connection) {t : Trace} (hs : Ending s)
    (hq : ∀ config, s ≠ .quitted config) (h : Life env connection.id t s) :
    ∃ s', Ending s' ∧ Life env connection.id (connection.quit env t) s' := by
  unfold Connection.quit
  split
  · next frame _ =>
    have hw : ∀ w, ∃ config, Step env connection.id s (.wrote connection.id .quit frame w)
        (.quitted config) := by
      intro w
      obtain ⟨config,hello,rfl⟩ | ⟨config,rfl⟩ | ⟨config,rfl⟩ := hs
      · exact ⟨config,.quit⟩
      · exact ⟨config,.quitFailing⟩
      · exact absurd rfl (hq config)
    unfold writeFrame
    split
    all_goals
      obtain ⟨config,hw⟩ := hw _
      exact ⟨_,.inr (.inr ⟨config,rfl⟩),h.step hw⟩
  · exact ⟨s,hs,h⟩

end BloopClient
