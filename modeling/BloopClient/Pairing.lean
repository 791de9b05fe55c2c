import BloopClient.Loopback
import BloopClient.Rounds
import BloopClient.WireOrder

/-!
# Replies are paired with their requests

Frames carry no correlation id: that a reply belongs to a request follows only
from the order of the stream. A server that answers the frames of a connection
one by one hands the `k`-th reply to the `k`-th successful read. The connection
is in step as long as nothing on it was cut short, and a stored connection
always is: every exchange that fails costs the connection.
-/

namespace BloopClient
open Tracelib ClientTask

/-- The event leaves the stream of connection `c` out of step: a frame that may
not have gone out, or a reply that was not read whole. -/
def Event.breaks (c : ℕ) : Event → Bool
  | .wrote c' _ _ (.broken _) => c' = c
  | .read c' _ _ none => c' = c
  | _ => false

/-- The event belongs to an exchange of the hook on connection `c`. -/
def Event.isSession (c : ℕ) : Event → Bool
  | .wrote c' .session _ _ => c' = c
  | .read c' .session _ _ => c' = c
  | _ => false

/-- Everything written on the connection went out, and everything awaited was
read. -/
def Unbroken (c : ℕ) (t : Trace) : Prop := ∀ e ∈ t, e.breaks c = false

instance (c : ℕ) (t : Trace) : Decidable (Unbroken c t) :=
  inferInstanceAs (Decidable (∀ e ∈ t, e.breaks c = false))

/-- A frame on connection `c` that the server answers. -/
def Event.isAsked (env : Env) (c : ℕ) : Event → Bool
  | .wrote c' _ frame _ => c' = c ∧ frame.messageType ≠ env.protocol.quitOpcode
  | _ => false

/-- A reply read from connection `c`. -/
def Event.isReply (c : ℕ) : Event → Bool
  | .read c' _ _ (some _) => c' = c
  | _ => false

/-- The number of frames written on a connection that the server answers. -/
def sent (env : Env) (c : ℕ) (t : Trace) : ℕ := t.countP (Event.isAsked env c)

/-- The number of replies read from a connection. -/
def got (c : ℕ) (t : Trace) : ℕ := t.countP (Event.isReply c)

/-- A server that answers every frame but a quit with exactly one frame, in
order: `reply c k` is its answer to frame number `k` of connection `c`, and a
reply can only be read once the frame was written. Nothing is asked of a stream
that is out of step. -/
def InOrder (env : Env) (reply : ℕ → ℕ → RawMessage) : Event → Trace → Bool
  | .read c _ _ (some raw), past =>
    decide (Unbroken c past → got c past < sent env c past ∧ raw = reply c (got c past))
  | _, _ => true

/-- A hook that returned `Ok` had completed every exchange it had begun. -/
def HookCompletes : Event → Trace → Bool
  | .hookReturned c .ok, past => decide (∀ e ∈ past, e.isSession c → e.breaks c = false)
  | _, _ => true

/-- The reply handed to a request was read in the exchange that wrote the
request's own frame. -/
def Delivered : Event → Trace → Prop
  | .answered response (.ok raw), past => ∃ (connection : Connection) (message : RawMessage)
      (before : Trace), Idles (repliedTrace connection message raw response before) past
  | _, _ => True

variable {env : Env} {c : ℕ} {t : Trace} {s : Stage} {e : Event} {role : Role} {raw : RawMessage}
  {config : ConnectionConfig} {hello : ServerHandshake} {reply : ℕ → ℕ → RawMessage}
  {self : ClientTask}

theorem unbroken_cons : Unbroken c (e :: t) ↔ e.breaks c = false ∧ Unbroken c t :=
  List.forall_mem_cons

theorem breaks_of_conn (h : e.conn ≠ some c) : e.breaks c = false := by
  cases e with
  | wrote c' role frame w => cases w <;> simp_all [Event.conn,Event.breaks]
  | read c' role bound reply => cases reply <;> simp_all [Event.conn,Event.breaks]
  | _ => rfl

theorem isAsked_conn (h : e.isAsked env c = true) : e.conn = some c := by
  cases e <;> simp_all [Event.isAsked,Event.conn]

theorem isReply_conn (h : e.isReply c = true) : e.conn = some c := by
  cases e with
  | read c' role bound reply => cases reply <;> simp_all [Event.isReply,Event.conn]
  | _ => cases h

/-- What is counted of a connection does not depend on the others. -/
theorem countP_on {p : Event → Bool} (hp : ∀ e, p e = true → e.conn = some c) (t : Trace) :
    (on c t).countP p = t.countP p := by
  rw [on,List.countP_filter]
  congr 1
  funext e
  by_cases he : p e = true
  · simp [he,hp e he]
  · simp [he]

theorem sent_on (env : Env) (c : ℕ) (t : Trace) : sent env c (on c t) = sent env c t :=
  countP_on (fun _ => isAsked_conn) t

theorem got_on (c : ℕ) (t : Trace) : got c (on c t) = got c t :=
  countP_on (fun _ => isReply_conn) t

@[simp] theorem got_wrote (c c' : ℕ) (role : Role) (frame : RawMessage) (w : Written) :
    got c (.wrote c' role frame w :: t) = got c t := by
  simp [got,Event.isReply]

@[simp] theorem got_read (role : Role) (bound : UInt32) :
    got c (.read c role bound (some raw) :: t) = got c t + 1 := by
  simp [got,Event.isReply]

@[simp] theorem sent_read (c c' : ℕ) (role : Role) (bound : UInt32) (reply : Option RawMessage) :
    sent env c (.read c' role bound reply :: t) = sent env c t := by
  simp [sent,Event.isAsked]

theorem sent_wrote (env : Env) (c : ℕ) (role : Role) (frame : RawMessage) (w : Written)
    (t : Trace) : sent env c t ≤ sent env c (.wrote c role frame w :: t) ∧
      sent env c (.wrote c role frame w :: t) ≤ sent env c t + 1 := by
  simp only [sent,List.countP_cons]
  split <;> omega

namespace Stage

/-- Nothing but the hook can have put the connection out of step. -/
def isSound : Stage → Bool
  | .refused _ | .failing _ | .quitted _ | .closed _ => false
  | _ => true

/-- How many replies are on their way: none between two exchanges, at most one
within. -/
def Outstanding : Stage → ℕ → ℕ → Prop
  | .greeting _ _, got, sent => got ≤ sent ∧ sent ≤ got + 1
  | .authenticating _ _, got, sent => got ≤ sent ∧ sent ≤ got + 1
  | .session _ _, got, sent => got ≤ sent ∧ sent ≤ got + 1
  | .asking _ _ _, got, sent => got ≤ sent ∧ sent ≤ got + 1
  | .failing _, _, _ => True
  | .quitted _, _, _ => True
  | .closed _, _, _ => True
  | _, got, sent => got = sent

end Stage

/-- A sound stage is reached from a sound one, and an event that goes wrong on
the way is one of the hook. -/
theorem Step.sound {s' : Stage} (hstep : Step env c s e s') (hs : s'.isSound) :
    s.isSound ∧ (e.breaks c → e.isSession c ∧
      (env.onConnect.isSome ∨ ∃ config hello, s = .session config hello)) := by
  cases hstep with
  | sessionBroken ho => exact ⟨rfl,fun _ => ⟨by simp [Event.isSession],.inl ho⟩⟩
  | sessionRead => exact ⟨rfl,fun _ => ⟨by simp [Event.isSession],.inr ⟨_,_,rfl⟩⟩⟩
  | _ => first
    | exact ⟨rfl,fun hb => by cases hb⟩
    | cases hs

namespace Life

theorem breaks_session (h : Life env c t s) (hs : s.isSound) :
    ∀ e ∈ t, e.breaks c → e.isSession c := by
  induction h with
  | nil => simp
  | step h hstep ih =>
    obtain ⟨hs₀,he⟩ := hstep.sound hs
    exact List.forall_mem_cons.mpr ⟨fun hb => (he hb).1,ih hs₀⟩
  | skip h he ih =>
    refine List.forall_mem_cons.mpr ⟨?_,ih hs⟩
    intro hb
    rw [breaks_of_conn he] at hb
    cases hb

/-- Without a hook nothing puts a connection out of step and keeps it. -/
theorem unbroken_unhooked (h : Life env c t s) (ho : env.onConnect = none) :
    (s.isSound → Unbroken c t) ∧ ∀ config hello, s ≠ .session config hello := by
  induction h with
  | nil => simp [Unbroken]
  | step h hstep ih =>
    constructor
    · intro hs
      obtain ⟨hs₀,he⟩ := hstep.sound hs
      refine unbroken_cons.mpr ⟨?_,ih.1 hs₀⟩
      by_contra hb
      rcases (he (by simpa using hb)).2 with hi | ⟨config,hello,hq⟩
      · simp [ho] at hi
      · exact ih.2 config hello hq
    · rintro config hello rfl
      cases hstep with
      | sessionWrite hi => simp [ho] at hi
  | skip h he ih =>
    exact ⟨fun hs => unbroken_cons.mpr ⟨breaks_of_conn he,ih.1 hs⟩,ih.2⟩

/-- A stored connection is in step: its hook left it so, and what came after
the hook would have cost the connection. -/
theorem unbroken (h : Life env c t s) (hs : s.isStored)
    (hh : Always (fun e past => HookCompletes e past) t) : Unbroken c t := by
  induction h with
  | nil => cases hs
  | @step t s e s' h hstep ih =>
    rw [unbroken_cons]
    cases hstep with
    | hookOk _ =>
      refine ⟨rfl,?_⟩
      intro e he
      by_contra hb
      have hc : ∀ e ∈ t, e.isSession c → e.breaks c = false := of_decide_eq_true hh.1
      have hsession := h.breaks_session rfl e he (by simpa using hb)
      rw [hc e he hsession] at hb
      exact hb rfl
    | storeUnhooked ho => exact ⟨rfl,(h.unbroken_unhooked ho).1 rfl⟩
    | store => exact ⟨rfl,ih rfl hh.2⟩
    | ask _ => exact ⟨rfl,ih rfl hh.2⟩
    | reply => exact ⟨rfl,ih rfl hh.2⟩
    | _ => cases hs
  | skip h he ih => exact unbroken_cons.mpr ⟨breaks_of_conn he,ih hs hh.2⟩

/-- On a connection in step, the replies read follow the frames sent. -/
theorem outstanding (h : Life env c t s) (hu : Unbroken c t)
    (hi : Always (fun e past => InOrder env reply e past) t) :
    s.Outstanding (got c t) (sent env c t) := by
  induction h with
  | nil => rfl
  | @step t s e s' h hstep ih =>
    obtain ⟨hb,hu'⟩ := unbroken_cons.mp hu
    have hp := ih hu' hi.2
    have hread : ∀ role bound raw, e = .read c role bound (some raw) →
        got c t < sent env c t := by
      rintro role bound raw rfl
      have hr := hi.1
      simp only [InOrder,decide_eq_true_eq] at hr
      exact (hr hu').1
    cases hstep with
    | greet _ | authenticate _ | sessionWrite _ | ask _ =>
      simp only [Stage.Outstanding,got_wrote] at hp ⊢
      rw [hp]
      exact sent_wrote env c _ _ _ t
    | welcome _ | accept _ | reject _ | reply =>
      have hr := hread _ _ _ rfl
      simp only [Stage.Outstanding,got_read,sent_read] at hp ⊢
      omega
    | @sessionRead _ _ reply =>
      cases reply with
      | none => simp [Event.breaks] at hb
      | some raw =>
        have hr := hread _ _ _ rfl
        simp only [Stage.Outstanding,got_read,sent_read] at hp ⊢
        omega
    | sessionBroken _ => simp [Event.breaks] at hb
    | dial | opened | connected | hookOk _ | storeUnhooked _ | store =>
      simpa [Stage.Outstanding,got,sent,Event.isReply,Event.isAsked] using hp
    | _ => trivial
  | skip h he ih =>
    rw [← sent_on,← got_on,on_cons_other he,sent_on,got_on]
    exact ih (unbroken_cons.mp hu).2 hi.2

/-- The frame a stored connection awaits the reply of was its last event. -/
theorem asking_head (h : Life env c t (.asking config hello role)) : ∃ frame before,
    (.wrote c role frame .complete :: before) <:+ t ∧
      on c t = .wrote c role frame .complete :: on c before ∧
      Life env c before (.ready config hello) := by
  generalize hs : Stage.asking config hello role = s at h
  induction h with
  | nil => cases hs
  | @step t s e s' h hstep ih =>
    subst hs
    cases hstep with
    | ask _ => exact ⟨_,t,List.suffix_refl _,on_cons_self rfl,h⟩
  | skip h he ih =>
    obtain ⟨frame,before,hsuf,hon,hl⟩ := ih hs
    exact ⟨frame,before,hsuf.trans (List.suffix_cons _ _),by rw [on_cons_other he,hon],hl⟩

/-- A reply read on a stored connection answers the frame written just before,
and none was outstanding when that frame was written. -/
theorem paired {bound : UInt32} {past : Trace}
    (h : Life env c (.read c role bound (some raw) :: past) s) (hr : role.asks)
    (hi : Always (fun e past => InOrder env reply e past) (.read c role bound (some raw) :: past))
    (hh : Always (fun e past => HookCompletes e past) past) : ∃ frame before,
    (.wrote c role frame .complete :: before) <:+ past ∧
      on c past = .wrote c role frame .complete :: on c before ∧
      got c before = sent env c before ∧ raw = reply c (sent env c before) := by
  obtain ⟨s₀,hl,hstep⟩ := h.cons_inv rfl
  cases hstep with
  | @reply config hello =>
    obtain ⟨frame,before,hsuf,hon,hready⟩ := hl.asking_head
    have hu : Unbroken c past := hl.unbroken rfl hh
    have hbefore : before <:+ past := (List.suffix_cons _ _).trans hsuf
    have hsettled : got c before = sent env c before :=
      hready.outstanding (fun e he => hu e (hbefore.subset he)) (hi.2.of_suffix hbefore)
    have hgot : got c past = got c before := by
      rw [← got_on,hon,got_wrote,got_on]
    have hread := hi.1
    simp only [InOrder,decide_eq_true_eq] at hread
    refine ⟨frame,before,hsuf,hon,hsettled,?_⟩
    rw [(hread hu).2,hgot,hsettled]
  | _ => exact absurd hr id

end Life

theorem Event.Plain.delivered (h : e.Plain) (past : Trace) : Delivered e past := by
  cases e with
  | answered response answer =>
    cases answer with
    | ok raw => exact absurd h id
    | error error => trivial
  | _ => trivial

/-- A round hands a reply to a request only after the exchange that read it. -/
theorem Round.delivered {select : Select} {task : ClientTask} (hr : Round env self select task)
    (h : Always Delivered self.trace) : Always Delivered task.trace :=
  hr.always h (fun _ past he => he.delivered past) (fun _ _ _ _ _ => trivial)
    (fun _ _ _ _ _ _ => trivial) (fun connection message _ _ _ _ hi => ⟨connection,message,_,hi⟩)
    (fun _ _ _ _ _ => trivial) (fun _ _ _ => trivial)

/-- Against a server that answers in order, and with a hook that completes its
exchanges or fails, every reply handed to a request is the server's answer to
that request's own frame, on the connection the frame was written to; and every
reply read for a ping is the answer to that ping. -/
theorem reply_pairing (env : Env) (config : Option ConnectionConfig) (rounds : List Select)
    (reply : ℕ → ℕ → RawMessage)
    (hserver : Always (fun e past => InOrder env reply e past)
      ((build config).run env rounds).trace)
    (hhook : Always (fun e past => HookCompletes e past) ((build config).run env rounds).trace) :
    let t := ((build config).run env rounds).trace
    (∀ response raw past, (.answered response (.ok raw) :: past) <:+ t →
      ∃ connection message before,
        Idles (repliedTrace connection message raw response before) past ∧
        raw = reply connection.id (sent env connection.id before)) ∧
    ∀ c bound raw past, (.read c .ping bound (some raw) :: past) <:+ t →
      ∃ frame before, (.wrote c .ping frame .complete :: before) <:+ past ∧
        on c past = .wrote c .ping frame .complete :: on c before ∧
        raw = reply c (sent env c before) := by
  intro t
  have hlinked : Linked env ((build config).run env rounds) := (Linked.build config).run rounds
  have hdelivered : Always Delivered t :=
    run_induction (P := fun task => Always Delivered task.trace) (Linked.build config)
      (by simp [build]) (fun _ _ _ _ h hr => hr.delivered h) rounds
  -- what one read on a stored connection is paired with
  have hpaired : ∀ c role bound raw past, role.asks →
      (.read c role bound (some raw) :: past) <:+ t → ∃ frame before,
        (.wrote c role frame .complete :: before) <:+ past ∧
        on c past = .wrote c role frame .complete :: on c before ∧
        raw = reply c (sent env c before) := by
    intro c role bound raw past hr hp
    obtain ⟨s,hs⟩ := hlinked.life c
    obtain ⟨s',hs'⟩ := hs.of_suffix hp
    obtain ⟨frame,before,hsuf,hon,_,hraw⟩ :=
      hs'.paired hr (hserver.of_suffix hp) (hhook.of_suffix hp).2
    exact ⟨frame,before,hsuf,hon,hraw⟩
  constructor
  · intro response raw past hp
    obtain ⟨connection,message,before,hi⟩ := always_iff.mp hdelivered _ _ hp
    refine ⟨connection,message,before,hi,?_⟩
    have hsuf : repliedTrace connection message raw response before <:+ t :=
      hi.suffix.trans ((List.suffix_cons _ _).trans hp)
    obtain ⟨frame,before',_,hon,hraw⟩ := hpaired _ _ _ _ _ (Role.asks_request response) hsuf
    rw [on_cons_self rfl,on_cons_other (by simp [Event.conn])] at hon
    have hb : on connection.id before = on connection.id before' := (List.cons.inj hon).2
    rw [hraw,← sent_on,← hb,sent_on]
  · intro c bound raw past hp
    exact hpaired c .ping bound raw past Role.asks_ping hp

/-- The loopback server's answers to the handshake, the credentials, a ping and
an echo request, paired with the echo. -/
theorem reply_pairing_echo :
    let rounds := [.tick,.tick,.recv (some (.request (Loopback.echo [1,2]) 0))]
    let reply := fun _ k => [⟨0x02,[3,1]⟩,⟨0x04,[]⟩,⟨0x06,[]⟩,⟨0x81,[2,1]⟩].getD k default
    ∃ past, ((build (some Loopback.config)).run Loopback.env rounds).trace =
        .answered 0 (.ok ⟨0x81,[2,1]⟩) :: past ∧
      ∃ connection message before,
        Idles (repliedTrace connection message ⟨0x81,[2,1]⟩ 0 before) past ∧
        (⟨0x81,[2,1]⟩ : RawMessage) =
          reply connection.id (sent Loopback.env connection.id before) := by
  intro rounds reply
  have h := reply_pairing Loopback.env (some Loopback.config) rounds reply (by decide) (by decide)
  exact ⟨_,rfl,h.1 0 ⟨0x81,[2,1]⟩ _ (List.suffix_refl _)⟩

end BloopClient
