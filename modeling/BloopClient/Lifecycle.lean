import BloopClient.Connection
import BloopClient.Tracelib.History

/-!
# The life of a connection

An abstract account of a connection: the stages it passes through, and the only
events that may happen to it at each. `Life env c t s` says that in the trace
`t` connection `c` lived by these rules and has reached stage `s`. The lemmas
of this file show that the functions of `Connection` move a connection by the
rules, and touch no other connection.
-/

namespace BloopClient
open Tracelib

/-- The stages of a connection, with the configuration its attempt used and,
once known, the server's handshake. -/
inductive Stage
  | unborn
  | dialing (config : ConnectionConfig)
  | opened (config : ConnectionConfig) (localIp : IpAddr)
  | greeting (config : ConnectionConfig) (localIp : IpAddr)
  | greeted (config : ConnectionConfig) (localIp : IpAddr) (hello : ServerHandshake)
  | authenticating (config : ConnectionConfig) (hello : ServerHandshake)
  | refused (config : ConnectionConfig)
  | accepted (config : ConnectionConfig) (hello : ServerHandshake)
  | connected (config : ConnectionConfig) (hello : ServerHandshake)
  | session (config : ConnectionConfig) (hello : ServerHandshake)
  | hooked (config : ConnectionConfig) (hello : ServerHandshake)
  | ready (config : ConnectionConfig) (hello : ServerHandshake)
  | asking (config : ConnectionConfig) (hello : ServerHandshake) (role : Role)
  | failing (config : ConnectionConfig)
  | quitted (config : ConnectionConfig)
  | closed (rejected : Bool)
  deriving DecidableEq, Repr

/-- A frame the task sends on a stored connection and awaits the reply of. -/
def Role.asks : Role → Prop
  | .request _ => True
  | .ping => True
  | _ => False

/-- The reply to the client's handshake that lets the connection go on. -/
def Welcome (env : Env) (raw : RawMessage) (hello : ServerHandshake) : Prop :=
  decodeResponse env.protocol env.protocol.decodeServerHandshake raw = .ok hello ∧
    hello.acceptedVersion = 3

/-- The reply to the authentication that lets the connection go on. -/
def Acceptance (env : Env) (raw : RawMessage) : Prop :=
  decodeResponse env.protocol env.protocol.decodeAuthenticationAccepted raw = .ok ()

/-- The reply to the authentication that rejects the credentials. -/
def Rejection (env : Env) (raw : RawMessage) : Prop :=
  decodeResponse env.protocol env.protocol.decodeAuthenticationAccepted raw =
    .error (.error .invalidCredentials)

/-- The authentication frame of an attempt. -/
def Credentials (env : Env) (config : ConnectionConfig) (localIp : IpAddr)
    (frame : RawMessage) : Prop :=
  env.protocol.encodeAuthentication ⟨config.clientId,config.clientSecret,localIp⟩ = .ok frame

variable {env : Env} {c c' : ℕ} {t t' : Trace} {s s' : Stage}

/-- The rules: what may happen to connection `c`, stage by stage. -/
inductive Step (env : Env) (c : ℕ) : Stage → Event → Stage → Prop
  | dial {config} : Step env c .unborn (.connecting c config) (.dialing config)
  | opened {config localIp} :
      Step env c (.dialing config) (.opened c localIp) (.opened config localIp)
  | undialed {config a} (h : a ≠ .accepted ∧ a ≠ .rejected) :
      Step env c (.dialing config) (.connectReturned c a) (.closed false)
  | greet {config localIp frame}
      (h : env.protocol.encodeClientHandshake ⟨3,3⟩ = .ok frame) :
      Step env c (.opened config localIp) (.wrote c .handshake frame .complete)
        (.greeting config localIp)
  | greetBroken {config localIp frame d}
      (h : env.protocol.encodeClientHandshake ⟨3,3⟩ = .ok frame) :
      Step env c (.opened config localIp) (.wrote c .handshake frame (.broken d))
        (.failing config)
  | welcome {config localIp raw hello} (h : Welcome env raw hello) :
      Step env c (.greeting config localIp) (.read c .handshake 1024 (some raw))
        (.greeted config localIp hello)
  | unwelcome {config localIp reply} (h : ∀ raw hello, reply = some raw → ¬ Welcome env raw hello) :
      Step env c (.greeting config localIp) (.read c .handshake 1024 reply) (.failing config)
  | authenticate {config localIp hello frame} (h : Credentials env config localIp frame) :
      Step env c (.greeted config localIp hello) (.wrote c .authentication frame .complete)
        (.authenticating config hello)
  | authenticateBroken {config localIp hello frame d} (h : Credentials env config localIp frame) :
      Step env c (.greeted config localIp hello) (.wrote c .authentication frame (.broken d))
        (.failing config)
  | accept {config hello raw} (h : Acceptance env raw) :
      Step env c (.authenticating config hello) (.read c .authentication 1024 (some raw))
        (.accepted config hello)
  | reject {config hello raw} (h : Rejection env raw) :
      Step env c (.authenticating config hello) (.read c .authentication 1024 (some raw))
        (.refused config)
  | unaccepted {config hello reply}
      (h : ∀ raw, reply = some raw → ¬ Acceptance env raw ∧ ¬ Rejection env raw) :
      Step env c (.authenticating config hello) (.read c .authentication 1024 reply)
        (.failing config)
  | connected {config hello} :
      Step env c (.accepted config hello) (.connectReturned c .accepted) (.connected config hello)
  | sessionWrite {config hello frame} (h : env.onConnect.isSome) :
      Step env c (.connected config hello) (.wrote c .session frame .complete)
        (.session config hello)
  /- A hook may go on with its session after an exchange that went wrong. -/
  | sessionBroken {config hello frame d} (h : env.onConnect.isSome) :
      Step env c (.connected config hello) (.wrote c .session frame (.broken d))
        (.connected config hello)
  | sessionRead {config hello reply} :
      Step env c (.session config hello) (.read c .session env.maxPayloadLen reply)
        (.connected config hello)
  | hookOk {config hello} (h : env.onConnect.isSome) :
      Step env c (.connected config hello) (.hookReturned c .ok) (.hooked config hello)
  | hookStopped {config hello r} (h : r ≠ .ok) :
      Step env c (.connected config hello) (.hookReturned c r) (.failing config)
  | storeUnhooked {config hello} (h : env.onConnect = none) :
      Step env c (.connected config hello) (.stored c) (.ready config hello)
  | store {config hello} : Step env c (.hooked config hello) (.stored c) (.ready config hello)
  | ask {config hello role frame} (h : role.asks) :
      Step env c (.ready config hello) (.wrote c role frame .complete) (.asking config hello role)
  | askBroken {config hello role frame d} (h : role.asks) :
      Step env c (.ready config hello) (.wrote c role frame (.broken d)) (.failing config)
  | reply {config hello role raw} :
      Step env c (.asking config hello role) (.read c role env.maxPayloadLen (some raw))
        (.ready config hello)
  | noReply {config hello role} :
      Step env c (.asking config hello role) (.read c role env.maxPayloadLen none)
        (.failing config)
  | quit {config hello frame w} :
      Step env c (.ready config hello) (.wrote c .quit frame w) (.quitted config)
  | quitFailing {config frame w} :
      Step env c (.failing config) (.wrote c .quit frame w) (.quitted config)
  | closeOpened {config localIp} :
      Step env c (.opened config localIp) (.closed c) (.closed false)
  | closeGreeted {config localIp hello} :
      Step env c (.greeted config localIp hello) (.closed c) (.closed false)
  | closeRefused {config} : Step env c (.refused config) (.closed c) (.closed true)
  | closeReady {config hello} : Step env c (.ready config hello) (.closed c) (.closed false)
  | closeFailing {config} : Step env c (.failing config) (.closed c) (.closed false)
  | closeQuitted {config} : Step env c (.quitted config) (.closed c) (.closed false)
  | rejected : Step env c (.closed true) (.connectReturned c .rejected) (.closed true)
  | failed {b a} (h : a ≠ .accepted ∧ a ≠ .rejected) :
      Step env c (.closed b) (.connectReturned c a) (.closed b)

theorem Step.conn {e : Event} (h : Step env c s e s') : e.conn = some c := by
  cases h <;> rfl

/-- An event leads to one stage only. -/
theorem Step.unique {e : Event} {s₁ s₂ : Stage} (h₁ : Step env c s e s₁) (h₂ : Step env c s e s₂) :
    s₁ = s₂ := by
  cases h₁ with
  | welcome hw =>
    cases h₂ with
    | welcome hw' =>
      have he := hw.1.symm.trans hw'.1
      cases he
      rfl
    | unwelcome hn => exact absurd hw (hn _ _ rfl)
  | unwelcome hn =>
    cases h₂ with
    | welcome hw => exact absurd hw (hn _ _ rfl)
    | unwelcome _ => rfl
  | accept ha =>
    cases h₂ with
    | accept _ => rfl
    | reject hj => cases ha.symm.trans hj
    | unaccepted hn => exact absurd ha (hn _ rfl).1
  | reject hj =>
    cases h₂ with
    | accept ha => cases ha.symm.trans hj
    | reject _ => rfl
    | unaccepted hn => exact absurd hj (hn _ rfl).2
  | unaccepted hn =>
    cases h₂ with
    | accept ha => exact absurd ha (hn _ rfl).1
    | reject hj => exact absurd hj (hn _ rfl).2
    | unaccepted _ => rfl
  | ask hr =>
    cases h₂ with
    | ask _ => rfl
    | quit => exact absurd hr id
  | askBroken hr =>
    cases h₂ with
    | askBroken _ => rfl
    | quit => exact absurd hr id
  | quit =>
    cases h₂ with
    | ask hr => exact absurd hr id
    | askBroken hr => exact absurd hr id
    | quit => rfl
  | _ => cases h₂ <;> first
    | rfl
    | simp_all

/-- In the trace, connection `c` lived by the rules and has reached a stage. -/
inductive Life (env : Env) (c : ℕ) : Trace → Stage → Prop
  | nil : Life env c [] .unborn
  | step {t s e s'} (h : Life env c t s) (hs : Step env c s e s') : Life env c (e :: t) s'
  | skip {t s e} (h : Life env c t s) (he : e.conn ≠ some c) : Life env c (e :: t) s

/-- A connection that lives by the rules did so at every earlier moment. -/
theorem Life.of_suffix (h : Life env c t s) (hp : t' <:+ t) : ∃ s', Life env c t' s' := by
  induction h with
  | nil =>
    rw [List.suffix_nil] at hp
    subst hp
    exact ⟨_,.nil⟩
  | @step t s e s' h hs ih =>
    rcases List.suffix_cons_iff.mp hp with rfl | hp
    · exact ⟨_,.step h hs⟩
    · exact ih hp
  | @skip t s e h he ih =>
    rcases List.suffix_cons_iff.mp hp with rfl | hp
    · exact ⟨_,.skip h he⟩
    · exact ih hp

/-- An event of the connection was a step of its life. -/
theorem Life.cons_inv {e : Event} (h : Life env c (e :: t) s') (he : e.conn = some c) :
    ∃ s, Life env c t s ∧ Step env c s e s' := by
  cases h with
  | step h hs => exact ⟨_,h,hs⟩
  | skip h hn => exact absurd he hn

/-- Events of other connections are no part of this one's life. -/
theorem Life.cons_other {e : Event} (h : Life env c (e :: t) s) (he : e.conn ≠ some c) :
    Life env c t s := by
  cases h with
  | step h hs => exact absurd hs.conn he
  | skip h _ => exact h

/-- A connection is at one stage at a time. -/
theorem Life.unique {s₁ s₂ : Stage} (h₁ : Life env c t s₁) (h₂ : Life env c t s₂) : s₁ = s₂ := by
  induction h₁ generalizing s₂ with
  | nil =>
    cases h₂
    rfl
  | step h hs ih =>
    obtain ⟨s₀,h₀,hs₀⟩ := h₂.cons_inv hs.conn
    rw [← ih h₀] at hs₀
    exact hs.unique hs₀
  | skip h he ih => exact ih (h₂.cons_other he)

/-- The trace grew by what happened on the stream of connection `c`. -/
abbrev Grows (c : ℕ) : Trace → Trace → Prop := Extends (Event.OnLink c)

end BloopClient
