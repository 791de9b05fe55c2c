import BloopClient.TaskLife

/-!
# The order of frames on a connection

Whatever the server answers, a connection carries the client's frames in one
order: the handshake, the credentials once the server has accepted version 3,
the hook's frames once it has accepted the credentials, requests and pings once
the hook has returned, and at most one quit, after everything else. The proofs
read the past of a connection off the stage it has reached.
-/

namespace BloopClient
open Tracelib

/-- The events of one connection. -/
def on (c : ℕ) (t : Trace) : Trace := t.filter fun e => e.conn = some c

/-- A frame was written whole and its reply read, in one exchange. -/
def Replied (c : ℕ) (role : Role) (frame raw : RawMessage) (t : Trace) : Prop :=
  ∃ later before bound, on c t =
    later ++ .read c role bound (some raw) :: .wrote c role frame .complete :: before

/-- The reply to the handshake accepted version 3. -/
def Negotiated (env : Env) (c : ℕ) (t : Trace) : Prop :=
  ∃ frame raw hello, Replied c .handshake frame raw t ∧ Welcome env raw hello

/-- The reply to the credentials accepted them. -/
def Authenticated (env : Env) (c : ℕ) (t : Trace) : Prop :=
  ∃ frame raw, Replied c .authentication frame raw t ∧ Acceptance env raw

/-- The server declared these capabilities in its handshake on a connection. -/
def Declared (env : Env) (c : ℕ) (capabilities : Capabilities) (t : Trace) : Prop :=
  ∃ frame raw hello, Replied c .handshake frame raw t ∧ Welcome env raw hello ∧
    hello.capabilities = capabilities

/-- The handshake of a connection's stage. -/
def Stage.hello : Stage → Option ServerHandshake
  | .greeted _ _ hello => some hello
  | .authenticating _ hello => some hello
  | .accepted _ hello => some hello
  | .connected _ hello => some hello
  | .session _ hello => some hello
  | .hooked _ hello => some hello
  | .ready _ hello => some hello
  | .asking _ hello _ => some hello
  | _ => none

/-- What must have happened on a connection before a frame is written, by the
frame's role. -/
def WriteOrder (env : Env) (c : ℕ) (frame : RawMessage) (past : Trace) : Role → Prop
  | .handshake => env.protocol.encodeClientHandshake ⟨3,3⟩ = .ok frame ∧
      ∀ role frame' w, .wrote c role frame' w ∉ past
  | .authentication => Negotiated env c past ∧ ∃ config localIp,
      .connecting c config ∈ past ∧ .opened c localIp ∈ past ∧
        Credentials env config localIp frame
  | .session => Authenticated env c past
  | .request _ => Authenticated env c past ∧ (env.onConnect.isSome → .hookReturned c .ok ∈ past)
  | .ping => Authenticated env c past ∧ (env.onConnect.isSome → .hookReturned c .ok ∈ past)
  | .quit => True

/-- The first frame on the connection was the client's handshake. -/
def Greeted (env : Env) (c : ℕ) (past : Trace) : Prop :=
  ∃ frame w, .wrote c .handshake frame w ∈ past ∧
    env.protocol.encodeClientHandshake ⟨3,3⟩ = .ok frame

/-- The order of a connection, event by event. -/
def WireOrder (env : Env) : Event → Trace → Prop
  | .wrote c role frame _, past => (∀ frame' w, .wrote c .quit frame' w ∉ past) ∧
      (role ≠ .handshake → Greeted env c past) ∧ WriteOrder env c frame past role
  | .read c _ bound _, past => (Authenticated env c past → bound = env.maxPayloadLen) ∧
      (¬ Authenticated env c past → bound = 1024)
  | .connectReturned c .rejected, past =>
      ∃ frame raw, Replied c .authentication frame raw past ∧
        raw.messageType = env.protocol.errorOpcode ∧
        env.protocol.decodeErrorResponse raw = .ok .invalidCredentials
  | _, _ => True

variable {env : Env} {c : ℕ} {t : Trace} {s : Stage} {e : Event}
  {config : ConnectionConfig} {localIp : IpAddr} {hello : ServerHandshake}

theorem on_cons_self (h : e.conn = some c) : on c (e :: t) = e :: on c t := by
  simp [on,h]

theorem on_cons_other (h : e.conn ≠ some c) : on c (e :: t) = on c t := by
  simp [on,h]

theorem mem_on (h : e.conn = some c) : e ∈ on c t ↔ e ∈ t := by
  simp [on,h]

theorem Role.asks.ne_quit {role : Role} (h : role.asks) : role ≠ .quit := by
  rintro rfl
  exact h

theorem Replied.cons {role : Role} {frame raw : RawMessage} (h : Replied c role frame raw t)
    (e : Event) : Replied c role frame raw (e :: t) := by
  obtain ⟨later,before,bound,hl⟩ := h
  by_cases he : e.conn = some c
  · exact ⟨e :: later,before,bound,by rw [on_cons_self he,hl,List.cons_append]⟩
  · exact ⟨later,before,bound,by rw [on_cons_other he,hl]⟩

/-- The read of an exchange follows its write. -/
theorem Replied.of_head {role : Role} {frame raw : RawMessage} {bound : UInt32} {before : Trace}
    (h : on c t = .wrote c role frame .complete :: before) :
    Replied c role frame raw (.read c role bound (some raw) :: t) :=
  ⟨[],before,bound,by rw [on_cons_self rfl,h]; rfl⟩

theorem Authenticated.cons (h : Authenticated env c t) (e : Event) :
    Authenticated env c (e :: t) := by
  obtain ⟨frame,raw,hr,ha⟩ := h
  exact ⟨frame,raw,hr.cons e,ha⟩

namespace Stage

/-- Nothing has been written. -/
def isSilent : Stage → Bool
  | .unborn | .dialing _ | .opened _ _ => true
  | _ => false

/-- The handshake has been written and the stream is still open. -/
def isGreeted : Stage → Bool
  | .unborn | .dialing _ | .opened _ _ | .closed _ => false
  | _ => true

/-- The credentials have not been answered. -/
def isEarly : Stage → Bool
  | .unborn | .dialing _ | .opened _ _ | .greeting _ _ | .greeted _ _ _ | .authenticating _ _ => true
  | _ => false

/-- The credentials have been accepted and nothing has gone wrong since. -/
def isAdmitted : Stage → Bool
  | .accepted _ _ | .connected _ _ | .session _ _ | .hooked _ _ | .ready _ _ | .asking _ _ _ => true
  | _ => false

/-- The hook, if there is one, has returned. -/
def isStored : Stage → Bool
  | .hooked _ _ | .ready _ _ | .asking _ _ _ => true
  | _ => false

/-- The credentials have been rejected. -/
def isRefused : Stage → Bool
  | .refused _ | .closed true => true
  | _ => false

/-- The disconnect may have been announced. -/
def isOver : Stage → Bool
  | .quitted _ | .closed _ => true
  | _ => false

end Stage

namespace Life

/-- A fact about a connection's own events and its stage holds if every rule
keeps it. -/
theorem on_induction {P : Trace → Stage → Prop} (nil : P [] .unborn)
    (step : ∀ l s e s', P l s → Step env c s e s' → P (e :: l) s')
    (h : Life env c t s) : P (on c t) s := by
  induction h with
  | nil => exact nil
  | step h hs ih =>
    rw [on_cons_self hs.conn]
    exact step _ _ _ _ ih hs
  | skip h he ih =>
    rw [on_cons_other he]
    exact ih

theorem no_write (h : Life env c t s) (hs : s.isSilent) :
    ∀ role frame w, .wrote c role frame w ∉ t := by
  suffices hP : s.isSilent → ∀ role frame w, .wrote c role frame w ∉ on c t from
    fun role frame w hm => hP hs role frame w ((mem_on rfl).mpr hm)
  refine on_induction (P := fun l s => s.isSilent → ∀ role frame w, .wrote c role frame w ∉ l)
    (by simp) ?_ h
  intro l s e s' ih hstep
  cases hstep <;> simp_all [Stage.isSilent]

theorem no_quit (h : Life env c t s) (hs : s.isOver = false) :
    ∀ frame w, .wrote c .quit frame w ∉ t := by
  suffices hP : s.isOver = false → ∀ frame w, .wrote c .quit frame w ∉ on c t from
    fun frame w hm => hP hs frame w ((mem_on rfl).mpr hm)
  refine on_induction (P := fun l s => s.isOver = false → ∀ frame w, .wrote c .quit frame w ∉ l)
    (by simp) ?_ h
  intro l s e s' ih hstep
  cases hstep with
  | ask hr => simp_all [Stage.isOver,hr.ne_quit.symm]
  | askBroken hr => simp_all [Stage.isOver,hr.ne_quit.symm]
  | _ => simp_all [Stage.isOver]

/-- Nothing but the handshake comes first. -/
theorem greeted (h : Life env c t s) (hs : s.isGreeted) : Greeted env c t := by
  suffices hP : s.isGreeted → Greeted env c (on c t) by
    obtain ⟨frame,w,hm,he⟩ := hP hs
    exact ⟨frame,w,(mem_on rfl).mp hm,he⟩
  refine on_induction (P := fun l s => s.isGreeted → Greeted env c l)
    (by simp [Stage.isGreeted]) ?_ h
  intro l s e s' ih hstep hs
  have hcons : Greeted env c l → Greeted env c (e :: l) := by
    rintro ⟨frame,w,hm,he⟩
    exact ⟨frame,w,List.mem_cons_of_mem _ hm,he⟩
  cases hstep with
  | greet he => exact ⟨_,_,List.mem_cons_self,he⟩
  | greetBroken he => exact ⟨_,_,List.mem_cons_self,he⟩
  | _ => first
    | exact hcons (ih rfl)
    | cases hs

theorem greeting_head (h : Life env c t (.greeting config localIp)) :
    ∃ frame before, on c t = .wrote c .handshake frame .complete :: before := by
  refine on_induction (P := fun l s => s = .greeting config localIp →
    ∃ frame before, l = .wrote c .handshake frame .complete :: before) (by simp) ?_ h rfl
  intro l s e s' ih hstep hs
  subst hs
  cases hstep with
  | greet _ => exact ⟨_,_,rfl⟩

theorem authenticating_head (h : Life env c t (.authenticating config hello)) :
    ∃ frame before, on c t = .wrote c .authentication frame .complete :: before := by
  refine on_induction (P := fun l s => s = .authenticating config hello →
    ∃ frame before, l = .wrote c .authentication frame .complete :: before) (by simp) ?_ h rfl
  intro l s e s' ih hstep hs
  subst hs
  cases hstep with
  | authenticate _ => exact ⟨_,_,rfl⟩

theorem negotiated (h : Life env c t (.greeted config localIp hello)) : Negotiated env c t := by
  generalize hs : Stage.greeted config localIp hello = s at h
  induction h with
  | nil => cases hs
  | step h hstep ih =>
    subst hs
    cases hstep with
    | welcome hw =>
      obtain ⟨frame,before,hb⟩ := greeting_head h
      exact ⟨frame,_,_,.of_head hb,hw⟩
  | skip h he ih =>
    obtain ⟨frame,raw,hello',hr,hw⟩ := ih hs
    exact ⟨frame,raw,hello',hr.cons _,hw⟩

/-- The handshake a stage remembers is the one the server sent. -/
theorem declared (h : Life env c t s)
    (hs : s.hello = some hello) : Declared env c hello.capabilities t := by
  have hcons : ∀ {e t}, Declared env c hello.capabilities t →
      Declared env c hello.capabilities (e :: t) :=
    fun ⟨frame,raw,hello',hr,hw,hc⟩ => ⟨frame,raw,hello',hr.cons _,hw,hc⟩
  induction h with
  | nil => cases hs
  | step h hstep ih =>
    cases hstep with
    | welcome hw =>
      obtain ⟨frame,before,hb⟩ := greeting_head h
      cases hs
      exact ⟨frame,_,_,.of_head hb,hw,rfl⟩
    | _ => first
      | exact hcons (ih hs)
      | cases hs
  | skip h he ih => exact hcons (ih hs)

theorem authenticated (h : Life env c t s) (hs : s.isAdmitted) : Authenticated env c t := by
  induction h with
  | nil => cases hs
  | step h hstep ih =>
    cases hstep with
    | accept ha =>
      obtain ⟨frame,before,hb⟩ := authenticating_head h
      exact ⟨frame,_,.of_head hb,ha⟩
    | _ => first
      | exact (ih rfl).cons _
      | cases hs
  | skip h he ih => exact (ih hs).cons _

/-- No reply to the credentials has been read yet. -/
theorem not_authenticated (h : Life env c t s) (hs : s.isEarly) : ¬ Authenticated env c t := by
  rintro ⟨frame,raw,⟨later,before,bound,hr⟩,_⟩
  suffices hP : ∀ raw bound, .read c .authentication bound (some raw) ∉ on c t by
    apply hP raw bound
    rw [hr]
    simp
  refine on_induction (P := fun l s => s.isEarly →
    ∀ raw bound, .read c .authentication bound (some raw) ∉ l) (by simp) ?_ h hs
  intro l s e s' ih hstep
  cases hstep <;> simp_all [Stage.isEarly]

theorem hookReturned (h : Life env c t s) (hs : s.isStored) (ho : env.onConnect.isSome) :
    .hookReturned c .ok ∈ t := by
  induction h with
  | nil => cases hs
  | step h hstep ih =>
    cases hstep with
    | hookOk _ => simp
    | storeUnhooked hn => simp [hn] at ho
    | _ => first
      | exact List.mem_cons_of_mem _ (ih rfl)
      | cases hs
  | skip h he ih => exact List.mem_cons_of_mem _ (ih hs)

/-- The stage of an attempt keeps what the attempt began with. -/
theorem greeted_mem (h : Life env c t (.greeted config localIp hello)) :
    .connecting c config ∈ t ∧ .opened c localIp ∈ t := by
  suffices hP : .connecting c config ∈ on c t ∧ .opened c localIp ∈ on c t from
    ⟨(mem_on rfl).mp hP.1,(mem_on rfl).mp hP.2⟩
  refine on_induction (P := fun l s => match s with
    | .dialing config => .connecting c config ∈ l
    | .opened config localIp => .connecting c config ∈ l ∧ .opened c localIp ∈ l
    | .greeting config localIp => .connecting c config ∈ l ∧ .opened c localIp ∈ l
    | .greeted config localIp _ => .connecting c config ∈ l ∧ .opened c localIp ∈ l
    | _ => True) trivial ?_ h
  intro l s e s' ih hstep
  cases hstep <;> simp_all

/-- A connection that was closed as rejected got that reply to the
credentials. -/
theorem rejection (h : Life env c t s) (hs : s.isRefused) :
    ∃ frame raw, Replied c .authentication frame raw t ∧ Rejection env raw := by
  induction h with
  | nil => cases hs
  | @step t s e s' h hstep ih =>
    have hcons : (∃ frame raw, Replied c .authentication frame raw t ∧ Rejection env raw) →
        ∃ frame raw, Replied c .authentication frame raw (e :: t) ∧ Rejection env raw :=
      fun ⟨frame,raw,hr,hj⟩ => ⟨frame,raw,hr.cons e,hj⟩
    cases hstep with
    | reject hj =>
      obtain ⟨frame,before,hb⟩ := authenticating_head h
      exact ⟨frame,_,.of_head hb,hj⟩
    | failed _ => exact hcons (ih hs)
    | _ => first
      | exact hcons (ih rfl)
      | cases hs
  | skip h he ih =>
    obtain ⟨frame,raw,hr,hj⟩ := ih hs
    exact ⟨frame,raw,hr.cons _,hj⟩

end Life

/-- An event that follows the rules is in order. -/
theorem wireOrder_of_step {s' : Stage} (h : Life env c t s) (hstep : Step env c s e s') :
    WireOrder env e t := by
  cases hstep with
  | greet he => exact ⟨h.no_quit rfl,fun hr => absurd rfl hr,he,h.no_write rfl⟩
  | greetBroken he => exact ⟨h.no_quit rfl,fun hr => absurd rfl hr,he,h.no_write rfl⟩
  | welcome _ =>
    exact ⟨fun ha => absurd ha (h.not_authenticated rfl),fun _ => rfl⟩
  | unwelcome _ =>
    exact ⟨fun ha => absurd ha (h.not_authenticated rfl),fun _ => rfl⟩
  | authenticate he =>
    exact ⟨h.no_quit rfl,fun _ => h.greeted rfl,h.negotiated,_,_,h.greeted_mem.1,h.greeted_mem.2,he⟩
  | authenticateBroken he =>
    exact ⟨h.no_quit rfl,fun _ => h.greeted rfl,h.negotiated,_,_,h.greeted_mem.1,h.greeted_mem.2,he⟩
  | accept _ => exact ⟨fun ha => absurd ha (h.not_authenticated rfl),fun _ => rfl⟩
  | reject _ => exact ⟨fun ha => absurd ha (h.not_authenticated rfl),fun _ => rfl⟩
  | unaccepted _ => exact ⟨fun ha => absurd ha (h.not_authenticated rfl),fun _ => rfl⟩
  | sessionWrite _ => exact ⟨h.no_quit rfl,fun _ => h.greeted rfl,h.authenticated rfl⟩
  | sessionBroken _ => exact ⟨h.no_quit rfl,fun _ => h.greeted rfl,h.authenticated rfl⟩
  | sessionRead => exact ⟨fun _ => rfl,fun hn => absurd (h.authenticated rfl) hn⟩
  | @ask _ _ role _ hr =>
    refine ⟨h.no_quit rfl,fun _ => h.greeted rfl,?_⟩
    cases role <;> first
      | exact ⟨h.authenticated rfl,h.hookReturned rfl⟩
      | exact absurd hr id
  | @askBroken _ _ role _ _ hr =>
    refine ⟨h.no_quit rfl,fun _ => h.greeted rfl,?_⟩
    cases role <;> first
      | exact ⟨h.authenticated rfl,h.hookReturned rfl⟩
      | exact absurd hr id
  | reply => exact ⟨fun _ => rfl,fun hn => absurd (h.authenticated rfl) hn⟩
  | noReply => exact ⟨fun _ => rfl,fun hn => absurd (h.authenticated rfl) hn⟩
  | quit => exact ⟨h.no_quit rfl,fun _ => h.greeted rfl,trivial⟩
  | quitFailing => exact ⟨h.no_quit rfl,fun _ => h.greeted rfl,trivial⟩
  | rejected =>
    obtain ⟨frame,raw,hr,hj⟩ := h.rejection rfl
    exact ⟨frame,raw,hr,decodeErrorResponse_of_decodeResponse_error hj⟩
  | @undialed _ a ha => cases a <;> trivial
  | @failed _ a ha => cases a <;> trivial
  | _ => trivial

/-- In every run, against every server, each connection carries its frames in
order. -/
theorem wire_order (env : Env) (config : Option ConnectionConfig)
    (rounds : List ClientTask.Select) :
    Always (WireOrder env) ((ClientTask.build config).run env rounds).trace := by
  rw [always_iff]
  intro e past hp
  have hlinked : Linked env ((ClientTask.build config).run env rounds) :=
    (Linked.build config).run rounds
  cases hc : e.conn with
  | none => cases e <;> trivial
  | some c =>
    obtain ⟨s,hs⟩ := hlinked.life c
    obtain ⟨s',hs'⟩ := hs.of_suffix hp
    obtain ⟨s₀,hl,hstep⟩ := hs'.cons_inv hc
    exact wireOrder_of_step hl hstep

end BloopClient
