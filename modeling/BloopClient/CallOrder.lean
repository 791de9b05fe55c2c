import BloopClient.CallLedger

/-!
# What calls return, and in which order

Every call takes effect at one place in a common order, between its start and its
return, and is told what the task did at that place. The order is that of the channel.
-/

namespace BloopClient
open Tracelib ClientTask

variable {env : Env} {config : Option ConnectionConfig} {t t' : Trace} {i : ℕ}

-- ════════════════════════════════════════════════════════════════════════
-- What the task owes to a oneshot
-- ════════════════════════════════════════════════════════════════════════

/-- The event is about the request with this oneshot. -/
def Event.isAbout (response : ℕ) : Event → Bool
  | .received (.request _ response') => response' = response
  | .wrote _ (.request response') _ _ => response' = response
  | .read _ (.request response') _ _ => response' = response
  | .answered response' _ => response' = response
  | _ => false

/-- A request has been received before anything is done about it, and is declined only
behind a shutdown. -/
def Owed : Event → Trace → Prop
  | .wrote _ (.request response) _ _, past =>
    ∃ message, .received (.request message response) ∈ past
  | .read _ (.request response) _ _, past =>
    ∃ message, .received (.request message response) ∈ past
  | .answered response answer, past => ∃ message, .received (.request message response) ∈ past ∧
      (answer = .error .shutdown → ∃ before shutdown,
        past = .received (.request message response) :: before ∧
          .received (.shutdown shutdown) ∈ before)
  | _, _ => True

/-- What the trace of a task tells of its shutdown. -/
structure Owing (task : ClientTask) : Prop where
  always : Always Owed task.trace
  down : task.shutdown = true → ∃ response, .received (.shutdown response) ∈ task.trace
  acknowledged : ∀ response, .acknowledged response ∈ task.trace → task.shutdown = true

theorem Event.OfAttempt.owed {e : Event} (h : e.OfAttempt) (past : Trace) : Owed e past := by
  cases e with
  | wrote c role frame w =>
    cases role with
    | request response => cases h
    | _ => trivial
  | read c role bound reply =>
    cases role with
    | request response => cases h
    | _ => trivial
  | answered response answer => exact absurd h id
  | _ => trivial

/-- What happens in the round of a request between its command and its answer. -/
def Event.OfRequest (response : ℕ) : Event → Prop
  | .wrote _ (.request response') _ _ => response' = response
  | .read _ (.request response') _ _ => response' = response
  | e => e.OfAttempt

theorem Event.OfAttempt.ofRequest {e : Event} (h : e.OfAttempt) (response : ℕ) :
    e.OfRequest response := by
  cases e with
  | wrote c role frame w =>
    cases role with
    | request response => cases h
    | _ => exact h
  | read c role bound reply =>
    cases role with
    | request response => cases h
    | _ => exact h
  | _ => exact h

theorem Event.OfRequest.owed {e : Event} {response : ℕ} {message : RawMessage} {past : Trace}
    (h : e.OfRequest response) (hin : .received (.request message response) ∈ past) :
    Owed e past := by
  cases e with
  | wrote c role frame w =>
    cases role with
    | request response' =>
      cases h
      exact ⟨message,hin⟩
    | _ => trivial
  | read c role bound reply =>
    cases role with
    | request response' =>
      cases h
      exact ⟨message,hin⟩
    | _ => trivial
  | answered response answer => exact absurd h id
  | _ => trivial

theorem Exchanged.ofRequest {connection : Connection} {frame : RawMessage} {response : ℕ}
    {r : Outcome FrameError RawMessage}
    (h : Exchanged connection (.request response) frame t r t') :
    Extends (Event.OfRequest response) t t' := by
  cases h with
  | replied => exact ⟨[_,_],rfl,by simp [Event.OfRequest]⟩
  | unanswered _ => exact ⟨[_,_],rfl,by simp [Event.OfRequest]⟩
  | unsent _ => exact ⟨[_],rfl,by simp [Event.OfRequest]⟩

theorem acknowledged_of_extends {P : Event → Prop} {response : ℕ}
    (hP : ∀ response, ¬ P (.acknowledged response)) (hx : Extends P t t')
    (h : .acknowledged response ∈ t') : .acknowledged response ∈ t := by
  obtain ⟨new,rfl,hn⟩ := hx
  rcases List.mem_append.mp h with h | h
  · exact absurd (hn _ h) (hP response)
  · exact h

namespace Owing

variable {self task : ClientTask}

theorem build (config : Option ConnectionConfig) : Owing (ClientTask.build config) :=
  ⟨by simp [ClientTask.build],by simp [ClientTask.build],by simp [ClientTask.build]⟩

/-- A round that leaves the flag alone has to account for its events only. -/
theorem of_suffix (h : Owing self) (ht : Always Owed task.trace)
    (hp : self.trace <:+ task.trace) (hs : task.shutdown = self.shutdown)
    (hack : ∀ response, .acknowledged response ∈ task.trace → .acknowledged response ∈ self.trace) :
    Owing task := by
  refine ⟨ht,?_,?_⟩
  · intro hd
    obtain ⟨response,hr⟩ := h.down (hs ▸ hd)
    exact ⟨response,hp.subset hr⟩
  · intro response ha
    rw [hs]
    exact h.acknowledged response (hack response ha)

/-- A round without a request or a shutdown. -/
theorem of_extends (h : Owing self) (new : Trace) (hnew : ∀ e ∈ new, ∀ past, Owed e past)
    (hack : ∀ response, .acknowledged response ∉ new)
    (hx : Extends Event.OfAttempt (new ++ self.trace) task.trace)
    (hs : task.shutdown = self.shutdown) : Owing task := by
  have hstart : Always Owed (new ++ self.trace) :=
    h.always.extend ⟨new,rfl,hnew⟩ fun e past he => he past
  refine h.of_suffix (hstart.extend hx fun e past he => he.owed past)
    ((List.suffix_append _ _).trans hx.suffix) hs ?_
  intro response ha
  rcases List.mem_append.mp (acknowledged_of_extends (fun _ => id) hx ha) with ha | ha
  · exact absurd ha (hack response)
  · exact ha

/-- A round that answers a request. It declines it only if the flag is up. -/
theorem of_request (h : Owing self) {message : RawMessage} {response : ℕ} {answer : Answer}
    {t : Trace}
    (hx : Extends (Event.OfRequest response)
      (.received (.request message response) :: self.trace) t)
    (ha : answer = .error .shutdown → self.shutdown = true ∧
      t = .received (.request message response) :: self.trace)
    (htask : task.trace = .answered response answer :: t)
    (hs : task.shutdown = self.shutdown) : Owing task := by
  have hin : .received (.request message response) ∈ t := hx.suffix.subset List.mem_cons_self
  have ht : .received (.request message response) ∈ t ∧ Always Owed t :=
    hx.induction (motive := fun past => .received (.request message response) ∈ past ∧
        Always Owed past)
      (fun e past he hp => ⟨List.mem_cons_of_mem _ hp.1,he.owed hp.1,hp.2⟩)
      ⟨List.mem_cons_self,trivial,h.always⟩
  refine h.of_suffix ?_ ?_ hs ?_
  · rw [htask]
    refine ⟨⟨message,hin,?_⟩,ht.2⟩
    intro hd
    obtain ⟨hshut,rfl⟩ := ha hd
    obtain ⟨shutdown,hr⟩ := h.down hshut
    exact ⟨self.trace,shutdown,rfl,hr⟩
  · rw [htask]
    exact ((List.suffix_cons _ _).trans hx.suffix).trans (List.suffix_cons _ _)
  · intro response' hr
    rw [htask] at hr
    rcases List.mem_cons.mp hr with hr | hr
    · cases hr
    · rcases List.mem_cons.mp (acknowledged_of_extends (fun _ => id) hx hr) with hr | hr
      · cases hr
      · exact hr

theorem round {select : Select} (h : Owing self) (hr : Round env self select task) :
    Owing task := by
  have hidle : ∀ {response : ℕ} {t t' : Trace}, Idles t t' →
      Extends (Event.OfRequest response) t t' :=
    fun hi => hi.mono fun _ he => he.ofAttempt.ofRequest _
  have hnone : ∀ e ∈ ([] : Trace), ∀ past, Owed e past := by simp
  cases hr with
  | @ignored config _ =>
    exact h.of_extends [.received (.configure config)] (by simp [Owed]) (by simp)
      (Extends.refl _) rfl
  | @configured config t hs hi _ =>
    have ht : Owing { self with trace := t } :=
      h.of_extends [.received (.configure config)] (by simp [Owed]) (by simp)
        hi.ofAttempt rfl
    refine ⟨⟨trivial,ht.always⟩,?_,?_⟩
    · intro hd
      obtain ⟨response,hm⟩ := ht.down hd
      exact ⟨response,List.mem_cons_of_mem _ hm⟩
    · intro response ha
      exact ht.acknowledged response (by simpa using ha)
  | refused hs => exact h.of_request (Extends.refl _) (fun _ => ⟨hs,rfl⟩) rfl rfl
  | offline _ _ => exact h.of_request (Extends.refl _) (by simp) rfl rfl
  | answered _ _ _ =>
    exact h.of_request (Exchanged.ofRequest (r := .ok _) .replied) (by simp) rfl rfl
  | answeredFatal _ _ _ =>
    exact h.of_request ((Exchanged.ofRequest (r := .ok _) .replied).trans
      (hidle (dropConnection_idles _))) (by simp) rfl (dropConnection_shutdown _)
  | @lost _ _ _ _ t _ _ _ hx =>
    exact h.of_request (hx.ofRequest.trans (hidle (dropConnection_idles { self with trace := t })))
      (by simp) rfl (dropConnection_shutdown _)
  | @shutdown response t hi _ =>
    have ht : Owing { self with trace := t } :=
      h.of_extends [.received (.shutdown response)] (by simp [Owed]) (by simp)
        hi.ofAttempt rfl
    refine ⟨⟨trivial,ht.always⟩,fun _ => ⟨response,?_⟩,fun _ _ => rfl⟩
    exact List.mem_cons_of_mem _ (hi.suffix.subset List.mem_cons_self)
  | woundDown hi _ =>
    exact h.of_extends [.channelClosed] (by simp [Owed]) (by simp) hi.ofAttempt rfl
  | idle _ => exact h
  | pinged _ _ hg => exact h.of_extends [] hnone (by simp) hg.idles.ofAttempt rfl
  | @pingLost _ t _ _ hg =>
    exact h.of_extends [] hnone (by simp) (hg.idles.ofAttempt.trans
      (dropConnection_idles { self with trace := t }).ofAttempt) (dropConnection_shutdown _)
  | attempted _ _ ha => exact h.of_extends [] hnone (by simp) ha.extends ha.frame.2.1

end Owing

-- ════════════════════════════════════════════════════════════════════════
-- Earlier and later
-- ════════════════════════════════════════════════════════════════════════

/-- What a call can become: it keeps its place, and nothing changes once it is over. -/
structure AskCall.Becomes (call call' : AskCall) : Prop where
  ask : call'.ask = call.ask
  ticket : ∀ k, call.ticket = some k → call'.ticket = some k
  ended : call.progress.isPending = false → call' = call

theorem AskCall.Becomes.refl (call : AskCall) : call.Becomes call := ⟨rfl,fun _ h => h,fun _ => rfl⟩

theorem AskCall.Becomes.trans {call call' call'' : AskCall} (h : call.Becomes call')
    (h' : call'.Becomes call'') : call.Becomes call'' := by
  refine ⟨h'.ask.trans h.ask,fun k hk => h'.ticket k (h.ticket k hk),?_⟩
  intro hp
  have heq := h.ended hp
  subst heq
  exact h'.ended hp

/-- The command is a request with this oneshot. -/
def Command.asks (response : ℕ) : Command → Bool
  | .request _ response' => response' = response
  | _ => false

theorem countP_dequeues (response : ℕ) (t : Trace) :
    t.countP (Event.dequeues response) = (received t).countP (Command.asks response) := by
  induction t with
  | nil => rfl
  | cons e t ih =>
    cases e with
    | received command =>
      rw [received,List.countP_append,List.countP_cons,ih]
      cases command <;> simp [Event.dequeues,Command.asks,List.countP_cons]
    | _ => simpa [received,Event.dequeues,List.countP_cons] using ih

namespace Client

variable {self : Client}

/-- The task ends its round and works off the queue. -/
def drain (n : ℕ) : List Action := .finish :: (List.replicate n [.recv,.finish]).flatten

theorem step_finish (env : Env) (self : Client) : (self.step env .finish).busy = none ∧
    (self.step env .finish).channel = self.channel ∧
    (self.step env .finish).running = self.running := by
  simp only [step,finish]
  cases hb : self.busy <;> simp [hb]

/-- Rounds over a queue of commands leave an idle task and an empty queue. -/
theorem run_rounds (env : Env) (self : Client) {n : ℕ} (hr : self.running = true)
    (hb : self.busy = none) (hn : self.channel.queue.length = n) :
    let client := self.run env (List.replicate n [.recv,.finish]).flatten
    client.busy = none ∧ client.channel.queue = [] ∧ client.channel.sent = self.channel.sent := by
  induction n generalizing self with
  | zero => exact ⟨hb,List.length_eq_zero_iff.mp hn,rfl⟩
  | succ n ih =>
    cases hq : self.channel.recv? with
    | none =>
      rw [Channel.recv?_eq_none.mp hq] at hn
      cases hn
    | some next =>
      obtain ⟨command,channel⟩ := next
      obtain ⟨hqueue,htaken⟩ := Channel.recv?_eq_some.mp hq
      have hstep : self.step env .recv =
          { self with channel, busy := some (.recv (some command)) } := by
        simp [step,recv,hr,hb,hq]
      obtain ⟨hb',hc',hr'⟩ := step_finish env (self.step env .recv)
      rw [hqueue,List.length_cons] at hn
      obtain ⟨hbusy,hempty,hsent⟩ := ih ((self.step env .recv).step env .finish)
        (hr'.trans (by rw [hstep]; exact hr)) hb' (by rw [hc',hstep]; exact Nat.succ.inj hn)
      refine ⟨hbusy,hempty,hsent.trans ?_⟩
      rw [hc',hstep,Channel.sent,Channel.sent,htaken,hqueue,List.append_assoc]
      rfl

theorem run_drain (env : Env) (hr : self.running = true) :
    let client := self.run env (drain self.channel.queue.length)
    client.busy = none ∧ client.channel.queue = [] ∧ client.channel.sent = self.channel.sent := by
  obtain ⟨hb,hc,hr'⟩ := step_finish env self
  have h := run_rounds env (self.step env .finish) (hr'.trans hr) hb
    (congrArg (fun channel => channel.queue.length) hc)
  rwa [hc] at h

end Client

/-- The event is no answer other than `Shutdown`. -/
def Event.Declines : Event → Prop
  | .answered _ answer => answer = .error .shutdown
  | _ => True

theorem Event.OfAttempt.declines {e : Event} (h : e.OfAttempt) : e.Declines := by
  cases e with
  | answered response answer => exact absurd h id
  | _ => trivial

theorem Round.declines {self task : ClientTask} {select : Select}
    (hr : Round env self select task) (hd : self.shutdown = true) :
    task.shutdown = true ∧ task.config = self.config ∧
      Extends Event.Declines self.trace task.trace := by
  have hidle : ∀ {t t' : Trace}, Idles t t' → Extends Event.Declines t t' :=
    fun hi => hi.mono fun _ he => he.ofAttempt.declines
  have hone : ∀ e : Event, e.Declines → Extends Event.Declines self.trace (e :: self.trace) :=
    fun _ he => (Extends.refl _).cons he
  have hup : self.shutdown ≠ false := by simp [hd]
  cases hr with
  | ignored _ => exact ⟨hd,rfl,hone _ trivial⟩
  | configured hs _ _ => exact absurd hs hup
  | refused _ => exact ⟨hd,rfl,(hone (.received _) trivial).cons rfl⟩
  | offline hs _ => exact absurd hs hup
  | answered hs _ _ => exact absurd hs hup
  | answeredFatal hs _ _ => exact absurd hs hup
  | lost hs _ _ _ => exact absurd hs hup
  | shutdown hi _ => exact ⟨rfl,rfl,((hone (.received _) trivial).trans (hidle hi)).cons trivial⟩
  | woundDown hi _ => exact ⟨hd,rfl,(hone .channelClosed trivial).trans (hidle hi)⟩
  | idle _ => exact ⟨hd,rfl,Extends.refl _⟩
  | pinged hs _ _ => exact absurd hs hup
  | pingLost hs _ _ => exact absurd hs hup
  | attempted hs _ _ => exact absurd hs hup

theorem Client.Moved.declines {self client : Client} {action : Action}
    (hm : Client.Moved env self action client) (hs : Serving env config self)
    (hd : self.task.shutdown = true) :
    client.task.shutdown = true ∧ client.task.config = self.task.config ∧
      Extends Event.Declines self.task.trace client.task.trace := by
  cases hm with
  | finished _ => exact (Serving.handle_round hs.linked _).declines hd
  | _ => exact ⟨hd,rfl,Extends.refl _⟩

/-- A `Configure` among commands is followed by the one in force, or is the one. -/
theorem exists_lastConfigure (initial : Option ConnectionConfig)
    {config : Option ConnectionConfig} {commands : List Command} {k : ℕ}
    (hk : commands[k]? = some (.configure config)) :
    ∃ (k' : ℕ) (config' : Option ConnectionConfig), k ≤ k' ∧
      commands[k']? = some (.configure config') ∧ lastConfigure initial commands = config' := by
  induction commands using List.reverseRecOn with
  | nil => cases hk
  | append_singleton commands command ih =>
    -- the last command is in force, or says nothing about it
    have hlast : (∃ config', command = .configure config' ∧
        lastConfigure initial (commands ++ [command]) = config') ∨
        ((∀ config', command ≠ .configure config') ∧
          lastConfigure initial (commands ++ [command]) = lastConfigure initial commands) := by
      cases command with
      | configure config' =>
        exact .inl ⟨config',rfl,by simp [lastConfigure,configurations,Command.configuration]⟩
      | _ => exact .inr ⟨by simp,by simp [lastConfigure,configurations,Command.configuration]⟩
    rcases hlast with ⟨config',rfl,hl⟩ | ⟨hne,hl⟩
    · have hlt := (List.getElem?_eq_some_iff.mp hk).1
      rw [List.length_append,List.length_singleton] at hlt
      exact ⟨commands.length,config',by omega,by simp,hl⟩
    · rcases getElem?_concat_cases hk with ⟨_,hc⟩ | hk
      · exact absurd hc.symm (hne _)
      · obtain ⟨k',config',hle,hk',hl'⟩ := ih hk
        exact ⟨k',config',hle,getElem?_concat_of_some hk',hl.trans hl'⟩

namespace Callers

variable {self callers later : Callers}

/-- A moment and a later one: commands and events are only added, calls are kept, and the
new ones come behind everything that was in the channel. -/
structure Later (callers later : Callers) : Prop where
  sent : callers.client.channel.sent <+: later.client.channel.sent
  trace : callers.client.task.trace <:+ later.client.task.trace
  calls : ∀ (i : ℕ) call, callers.calls[i]? = some call →
    ∃ call', later.calls[i]? = some call' ∧ call.Becomes call'
  behind : ∀ (j : ℕ) call k, callers.calls.length ≤ j → later.calls[j]? = some call →
    call.ticket = some k → callers.client.channel.sent.length ≤ k

namespace Later

theorem refl (callers : Callers) : Later callers callers where
  sent := List.prefix_rfl
  trace := List.suffix_rfl
  calls _ call hi := ⟨call,hi,.refl call⟩
  behind j call k hj hcall := by
    have := (List.getElem?_eq_some_iff.mp hcall).1
    omega

/-- A call is changed in its place, and gets a place in the channel there if at all. -/
theorem set_call {call call' : AskCall} (h : Later callers self) (hi : self.calls[i]? = some call)
    (hb : call.Becomes call') (hk : ∀ k, call'.ticket = some k →
      call.ticket = some k ∨ self.client.channel.sent.length ≤ k) (client : Client)
    (hsent : self.client.channel.sent <+: client.channel.sent)
    (htrace : self.client.task.trace <:+ client.task.trace) :
    Later callers { self with client, calls := self.calls.set i call' } := by
  refine ⟨h.sent.trans hsent,h.trace.trans htrace,?_,?_⟩
  · intro j old hj
    obtain ⟨now,hnow,hbecomes⟩ := h.calls j old hj
    by_cases hij : j = i
    · subst hij
      rw [hi,Option.some.injEq] at hnow
      subst hnow
      exact ⟨call',getElem?_set_of_some hi,hbecomes.trans hb⟩
    · refine ⟨now,?_,hbecomes⟩
      rw [List.getElem?_set_ne (Ne.symm hij)]
      exact hnow
  · intro j now k hj hnow ht
    rcases getElem?_set_cases hnow with ⟨rfl,rfl⟩ | ⟨_,hnow⟩
    · rcases hk k ht with hold | hnew
      · exact h.behind _ call k hj hi hold
      · exact h.sent.length_le.trans hnew
    · exact h.behind j now k hj hnow ht

theorem set_client (h : Later callers self) {client : Client} {live : List Bool}
    (hsent : self.client.channel.sent <+: client.channel.sent)
    (htrace : self.client.task.trace <:+ client.task.trace) :
    Later callers ⟨client,live,self.calls⟩ :=
  ⟨h.sent.trans hsent,h.trace.trans htrace,h.calls,h.behind⟩

theorem moved (h : Later callers self) (hl : Ledger env config self)
    (hm : Moved env self later) : Later callers later := by
  have htrace : ∀ action, self.client.task.trace <:+ (self.client.step env action).task.trace :=
    fun action => (Client.step_moved env self.client action).suffix hl.serving
  cases hm with
  | idle => exact h
  | cloned hlive =>
    refine h.set_client ?_ (htrace _)
    simp only [Client.step]
    split <;> exact List.prefix_rfl
  | discarded _ _ ha =>
    refine h.set_client ?_ (htrace _)
    rcases ha with rfl | rfl
    · exact List.prefix_rfl
    · simp only [Client.step,Client.shutdown]
      split <;> exact List.prefix_rfl
  | called _ =>
    refine ⟨h.sent,h.trace,?_,?_⟩
    · intro i call hi
      obtain ⟨call',hi',hb⟩ := h.calls i call hi
      exact ⟨call',getElem?_concat_of_some hi',hb⟩
    · intro j call k hj hcall ht
      rcases getElem?_concat_cases hcall with ⟨_,rfl⟩ | hcall
      · cases ht
      · exact h.behind j call k hj hcall ht
  | @accepted i n ask ticket channel hi hc =>
    have hb : AskCall.Becomes ⟨n,ask,.sending,ticket⟩
        ⟨n,ask,ask.accepted,some self.client.channel.sent.length⟩ := by
      refine ⟨rfl,?_,by simp [Progress.isPending]⟩
      intro k hk
      cases hl.standing i _ hi with
      | sending => cases hk
    have hsent : self.client.channel.sent <+: channel.sent := by
      rw [Client.sent_of_send hc]
      exact List.prefix_append _ _
    refine h.set_call hi hb ?_ { self.client with channel } hsent List.suffix_rfl
    intro k hk
    cases hk
    exact .inr le_rfl
  | @settled i call progress hi hs =>
    have hpending : call.progress.isPending = true := by
      cases hs with
      | expired _ hp => simp [hp,Progress.isPending]
      | woken hp _ => simp [hp,Progress.isPending]
      | dropped hp => exact hp
    have hb : call.Becomes { call with progress } :=
      ⟨rfl,fun _ hk => hk,fun hp => absurd (hp.symm.trans hpending) (by simp)⟩
    exact h.set_call hi hb (fun _ hk => .inl hk) self.client List.prefix_rfl List.suffix_rfl
  | @moved action ha =>
    obtain ⟨new,hnew,_⟩ := (Client.step_moved env self.client action).sent_of_inner ha
    refine h.set_client ?_ (htrace _)
    rw [hnew]
    exact List.prefix_append _ _

theorem run (hl : Ledger env config self) (more : List CallerAction) :
    Later self (self.run env more) :=
  (run_induction (P := fun later => Ledger env config later ∧ Later self later) ⟨hl,refl self⟩
    (fun _ _ h hm => ⟨h.1.moved hm,h.2.moved h.1 hm⟩) more).2

end Later

-- ════════════════════════════════════════════════════════════════════════
-- The ledger against the trace
-- ════════════════════════════════════════════════════════════════════════

namespace Ledger

theorem owing (h : Ledger env config self) : Owing self.client.task :=
  h.serving.induction (.build config) (fun _ _ _ _ h hr => h.round hr)

theorem fresher (h : Ledger env config self) : Fresher env config self.client.task :=
  h.serving.induction (.build config) (fun _ _ _ hl h hr => h.round hl hr)

theorem balanced (h : Ledger env config self) : Balanced self.client.task.trace :=
  h.serving.induction (P := fun task => Balanced task.trace) (fun _ => rfl)
    (fun _ _ _ _ h hr => hr.balanced h)

/-- The task receives what was sent, from the front. -/
theorem received_isPrefix (h : Ledger env config self) :
    received self.client.task.trace <+: self.client.channel.sent :=
  List.IsPrefix.trans ⟨_,h.serving.order⟩ (List.prefix_append _ _)

/-- A request in the channel is the one of its call. -/
theorem request_call (h : Ledger env config self) {k : ℕ} {message : RawMessage}
    (hk : self.client.channel.sent[k]? = some (.request message i)) :
    ∃ call, self.calls[i]? = some call ∧ call.ask = .request message ∧ call.ticket = some k := by
  obtain ⟨j,⟨n,ask,progress,ticket⟩,hj,ht,ha⟩ := h.sources k _ hk rfl
  cases ask with
  | configure config => cases ha
  | request message' =>
    cases ha
    exact ⟨_,hj,rfl,ht⟩

/-- A request that was received is the one of its call. -/
theorem received_call (h : Ledger env config self) {message : RawMessage}
    (hm : .received (.request message i) ∈ self.client.task.trace) :
    ∃ call k, self.calls[i]? = some call ∧ call.ask = .request message ∧ call.ticket = some k := by
  obtain ⟨k,hk⟩ := List.mem_iff_getElem?.mp (mem_received_iff.mpr hm)
  obtain ⟨call,hc,ha,ht⟩ := h.request_call (getElem?_of_isPrefix h.received_isPrefix hk)
  exact ⟨call,k,hc,ha,ht⟩

/-- Whatever the task does about a oneshot, the request was received. -/
theorem received_of_isAbout (h : Ledger env config self) {e : Event}
    (he : e ∈ self.client.task.trace) (hi : e.isAbout i = true) :
    ∃ message, .received (.request message i) ∈ self.client.task.trace := by
  obtain ⟨past,hp,ho⟩ := h.owing.always.of_mem he
  have hpast : past ⊆ self.client.task.trace := ((List.suffix_cons _ _).trans hp).subset
  cases e with
  | received command =>
    cases command with
    | request message response =>
      obtain rfl : response = i := by simpa [Event.isAbout] using hi
      exact ⟨message,he⟩
    | _ => cases hi
  | wrote c role frame w =>
    cases role with
    | request response =>
      obtain rfl : response = i := by simpa [Event.isAbout] using hi
      exact ho.imp fun _ hm => hpast hm
    | _ => cases hi
  | read c role bound reply =>
    cases role with
    | request response =>
      obtain rfl : response = i := by simpa [Event.isAbout] using hi
      exact ho.imp fun _ hm => hpast hm
    | _ => cases hi
  | answered response answer =>
    obtain rfl : response = i := by simpa [Event.isAbout] using hi
    exact ho.imp fun _ hm => hpast hm.1
  | _ => cases hi

/-- No request is received twice. -/
theorem dequeues_le_one (h : Ledger env config self) (i : ℕ) :
    self.client.task.trace.countP (Event.dequeues i) ≤ 1 := by
  rw [countP_dequeues]
  refine (h.received_isPrefix.sublist.countP_le (p := Command.asks i)).trans ?_
  refine countP_le_one ?_
  intro j k a b hj hk ha hb
  cases a with
  | request message response =>
    cases b with
    | request message' response' =>
      obtain rfl : response = i := by simpa [Command.asks] using ha
      obtain rfl : response' = response := by simpa [Command.asks] using hb
      obtain ⟨call,hc,_,ht⟩ := h.request_call hj
      obtain ⟨call',hc',_,ht'⟩ := h.request_call hk
      rw [hc,Option.some.injEq] at hc'
      subst hc'
      exact Option.some.inj (ht.symm.trans ht')
    | _ => cases hb
  | _ => cases ha

/-- No request is answered twice. -/
theorem answers_eq_one (h : Ledger env config self) {answer : Answer}
    (ha : .answered i answer ∈ self.client.task.trace) :
    self.client.task.trace.countP (Event.answers i) = 1 := by
  refine Nat.le_antisymm ((h.balanced i).trans_le (h.dequeues_le_one i)) ?_
  rw [Nat.one_le_iff_ne_zero]
  exact (List.countP_pos_iff.mpr ⟨_,ha,by simp [Event.answers]⟩).ne'

/-- What was received has been answered. -/
theorem answered_of_received (h : Ledger env config self) {message : RawMessage}
    (hm : .received (.request message i) ∈ self.client.task.trace) :
    ∃ answer, .answered i answer ∈ self.client.task.trace := by
  have hpos : 0 < self.client.task.trace.countP (Event.answers i) := by
    rw [h.balanced i]
    exact List.countP_pos_iff.mpr ⟨_,hm,by simp [Event.dequeues]⟩
  obtain ⟨e,he,ha⟩ := List.countP_pos_iff.mp hpos
  cases e with
  | answered response answer =>
    obtain rfl : response = i := by simpa [Event.answers] using ha
    exact ⟨answer,he⟩
  | _ => cases ha

/-- A request the task has come to in the order of the channel is answered. -/
theorem answered_of_lt (h : Ledger env config self) {k : ℕ} {message : RawMessage}
    (hk : self.client.channel.sent[k]? = some (.request message i))
    (hlt : k < (received self.client.task.trace).length) :
    ∃ answer, .answered i answer ∈ self.client.task.trace := by
  rw [← getElem?_prefix_of_lt h.received_isPrefix hlt] at hk
  exact h.answered_of_received (mem_received_iff.mp (List.mem_of_getElem? hk))

/-- The task has received all that was taken from the channel, up to one command. -/
theorem taken_length (h : Ledger env config self) :
    self.client.channel.taken.length ≤ (received self.client.task.trace).length + 1 ∧
      (self.client.busy = none →
        (received self.client.task.trace).length = self.client.channel.taken.length) := by
  rw [← h.serving.order,List.length_append]
  have hone : ∀ busy : Option Select, ((busy.map command).getD []).length ≤ 1 := by
    rintro (_ | (_ | _) | _) <;> simp [command]
  refine ⟨Nat.add_le_add_left (hone _) _,?_⟩
  intro hb
  simp [hb]

/-- A call that waits has its request in the channel. -/
theorem waiting_place (h : Ledger env config self) {call : AskCall}
    (hi : self.calls[i]? = some call) (hw : call.progress = .waiting) :
    ∃ n message k, call = ⟨n,.request message,.waiting,some k⟩ ∧
      self.client.channel.sent[k]? = some (.request message i) := by
  have hstand := h.standing i call hi
  cases hstand with
  | @waiting n message k => exact ⟨n,message,k,rfl,h.tickets i _ k hi rfl⟩
  | _ => cases hw

/-- A call whose command was not accepted is none of the task's business. -/
theorem not_about (h : Ledger env config self) {call : AskCall} (hi : self.calls[i]? = some call)
    (ht : call.ticket = none) {e : Event} (he : e ∈ self.client.task.trace) :
    e.isAbout i = false := by
  by_contra habout
  obtain ⟨message,hm⟩ := h.received_of_isAbout he (by simpa using habout)
  obtain ⟨call',k,hc,_,hk⟩ := h.received_call hm
  rw [hi,Option.some.injEq] at hc
  subst hc
  rw [ht] at hk
  cases hk

/-- A request the task declines is behind a shutdown. -/
theorem declined_behind (h : Ledger env config self) {call : AskCall} {message : RawMessage}
    (hi : self.calls[i]? = some call) (hask : call.ask = .request message)
    (ha : .answered i (.error .shutdown) ∈ self.client.task.trace) :
    ∃ past response, .received (.request message i) :: past <:+ self.client.task.trace ∧
      .received (.shutdown response) ∈ past := by
  obtain ⟨past,hp,message',_,hshut⟩ := h.owing.always.of_mem ha
  obtain ⟨before,response,rfl,hs⟩ := hshut rfl
  have hsuf : .received (.request message' i) :: before <:+ self.client.task.trace :=
    (List.suffix_cons _ _).trans hp
  obtain ⟨call',_,hc,hask',_⟩ := h.received_call (hsuf.subset List.mem_cons_self)
  rw [hi,Option.some.injEq] at hc
  subst hc
  rw [hask] at hask'
  cases hask'
  exact ⟨before,response,hsuf,hs⟩

end Ledger

/-- The task of the client moves by steps of the client. -/
theorem Moved.task (hm : Moved env self later) : later.client.task = self.client.task ∨
    ∃ action, later.client.task = (self.client.step env action).task := by
  cases hm with
  | idle => exact .inl rfl
  | cloned _ => exact .inr ⟨_,rfl⟩
  | discarded _ _ _ => exact .inr ⟨_,rfl⟩
  | called _ => exact .inl rfl
  | accepted _ _ => exact .inl rfl
  | settled _ _ => exact .inl rfl
  | moved _ => exact .inr ⟨_,rfl⟩

/-- A task that is shut down declines every request it still answers. -/
theorem Ledger.declines (h : Ledger env config self) (hd : self.client.task.shutdown = true)
    (more : List CallerAction) :
    (self.run env more).client.task.config = self.client.task.config ∧
      Extends Event.Declines self.client.task.trace (self.run env more).client.task.trace := by
  let P : Callers → Prop := fun later => Ledger env config later ∧
    later.client.task.shutdown = true ∧ later.client.task.config = self.client.task.config ∧
    Extends Event.Declines self.client.task.trace later.client.task.trace
  suffices hall : P (self.run env more) from hall.2.2
  refine run_induction (P := P) ⟨h,hd,rfl,Extends.refl _⟩ ?_ more
  rintro now later ⟨hl,hdown,hconfig,hx⟩ hm
  refine ⟨hl.moved hm,?_⟩
  rcases hm.task with ht | ⟨action,ht⟩
  · rw [ht]
    exact ⟨hdown,hconfig,hx⟩
  · obtain ⟨hdown',hconfig',hx'⟩ :=
      (Client.step_moved env now.client action).declines hl.serving hdown
    rw [ht]
    exact ⟨hdown',hconfig'.trans hconfig,hx.trans hx'⟩

-- ════════════════════════════════════════════════════════════════════════
-- Results
-- ════════════════════════════════════════════════════════════════════════

/-- Calls take effect one after the other. The task is that of a sequential run over the
commands in the order of the channel; behind each of them there is one call, at its place,
or a call of `shutdown`; no two calls share a place; and a call that was accepted before
another one was made comes first. -/
theorem calls_linearizable (env : Env) (config : Option ConnectionConfig)
    (actions more : List CallerAction) :
    let self := (build config).run env actions
    let later := self.run env more
    (∃ rounds, later.client.task = (ClientTask.build config).run env rounds ∧
      received later.client.task.trace <+: later.client.channel.sent) ∧
    (∀ (k : ℕ) command, later.client.channel.sent[k]? = some command →
      (∃ response, command = .shutdown response) ∨ ∃ (i : ℕ) (call : AskCall),
        later.calls[i]? = some call ∧ call.ticket = some k ∧ command = call.ask.command i) ∧
    (∀ (i : ℕ) call k, later.calls[i]? = some call → call.ticket = some k →
      later.client.channel.sent[k]? = some (call.ask.command i) ∧
      ∀ (j : ℕ) call', later.calls[j]? = some call' → call'.ticket = some k → j = i) ∧
    ∀ (i j : ℕ) call call' k k', self.calls[i]? = some call → call.ticket = some k →
      self.calls.length ≤ j → later.calls[j]? = some call' → call'.ticket = some k' → k < k' := by
  intro self later
  have hself : Ledger env config self := (Ledger.build config).run actions
  have hledger : Ledger env config later := hself.run more
  have hlater : Later self later := Later.run hself more
  refine ⟨?_,?_,?_,?_⟩
  · obtain ⟨rounds,htask,_⟩ := hledger.serving.served
    exact ⟨rounds,htask,hledger.received_isPrefix⟩
  · intro k command hk
    cases command with
    | shutdown response => exact .inl ⟨response,rfl⟩
    | configure config => exact .inr (hledger.sources k _ hk rfl)
    | request message response => exact .inr (hledger.sources k _ hk rfl)
  · intro i call k hi hk
    refine ⟨hledger.tickets i call k hi hk,?_⟩
    intro j call' hj hk'
    exact hledger.distinct j i call' call k hj hi hk' hk
  · intro i j call call' k k' hi hk hj hj' hk'
    have hlt : k < self.client.channel.sent.length :=
      (List.getElem?_eq_some_iff.mp (hself.tickets i call k hi hk)).1
    exact hlt.trans_le (hlater.behind j call' k' hj hj' hk')

/-- Once a shutdown was acknowledged, every call made from then on that returns at all
returns `Shutdown`, or `Disconnected` if the channel had no room for it in time, or `Ok` if
it is a `configure`, which then has no effect. -/
theorem calls_after_shutdown (env : Env) (config : Option ConnectionConfig)
    (actions more : List CallerAction) (response : ℕ)
    (hacknowledged : .acknowledged response ∈
      ((build config).run env actions).client.task.trace) :
    let self := (build config).run env actions
    let later := self.run env more
    later.client.task.config = self.client.task.config ∧
    ∀ (j : ℕ) call result, self.calls.length ≤ j → later.calls[j]? = some call →
      call.progress = .returned result →
      (∃ config', call.ask = .configure config' ∧ result = .ok none) ∨
      ∃ message, call.ask = .request message ∧
        (call.ticket = none ∧ result = .error .disconnected ∨
          call.ticket ≠ none ∧ result = .error .shutdown) := by
  intro self later
  have hself : Ledger env config self := (Ledger.build config).run actions
  have hledger : Ledger env config later := hself.run more
  have hdown : self.client.task.shutdown = true :=
    hself.owing.acknowledged response hacknowledged
  obtain ⟨hconfig,new,htrace,hnew⟩ := hself.declines hdown more
  refine ⟨hconfig,?_⟩
  rintro j ⟨h,ask,progress,ticket⟩ result hj hcall hp
  dsimp only at hp
  subst hp
  cases hledger.standing j _ hcall with
  | configured => exact .inl ⟨_,rfl,rfl⟩
  | expired => exact .inr ⟨_,rfl,.inl ⟨rfl,rfl⟩⟩
  | @answered _ message answer k ha =>
    refine .inr ⟨message,rfl,.inr ⟨by simp,?_⟩⟩
    rw [htrace] at ha
    rcases List.mem_append.mp ha with ha | ha
    · have hdeclined : answer = .error .shutdown := hnew _ ha
      rw [hdeclined]
      rfl
    · -- the request would have been received before its call was made
      obtain ⟨message',hm⟩ := hself.received_of_isAbout (i := j) ha (by simp [Event.isAbout])
      obtain ⟨_,_,hc,_⟩ := hself.received_call hm
      have hlt := (List.getElem?_eq_some_iff.mp hc).1
      omega

/-- A request of a handle whose clone has been shut down. -/
theorem calls_after_shutdown_loopback :
    let self := (build (some Loopback.config)).run Loopback.env [.clone 0,.inner .tick,
      .inner .finish,.shutdown 1,.inner (.accept 0),.inner .recv,.inner .finish]
    let later := self.run Loopback.env [.call 0 (.request (Loopback.echo [1])),.accept 0,
      .inner .recv,.inner .finish,.wake 0]
    later.calls = [⟨0,.request (Loopback.echo [1]),.returned (.error .shutdown),some 1⟩] ∧
      later.client.task.config = self.client.task.config :=
  ⟨by decide +kernel,(calls_after_shutdown Loopback.env (some Loopback.config) _ _ 0
    (by decide +kernel)).1⟩

/-- A request made after a `configure` has returned is written only to a connection that was
opened with the configuration of that `configure` or of a later one. -/
theorem request_follows_configure (env : Env) (config : Option ConnectionConfig)
    (actions more : List CallerAction) (i h : ℕ) (config' : Option ConnectionConfig) (k : ℕ)
    (hconfigured : ((build config).run env actions).calls[i]? =
      some ⟨h,.configure config',.returned (.ok none),some k⟩) :
    let self := (build config).run env actions
    let later := self.run env more
    ∀ (j : ℕ) c frame w past, self.calls.length ≤ j →
      .wrote c (.request j) frame w :: past <:+ later.client.task.trace →
      ∃ (k' : ℕ) (used : ConnectionConfig) (before : Trace), k ≤ k' ∧
        later.client.channel.sent[k']? = some (.configure (some used)) ∧
        past = .received (.request frame j) :: before ∧ OpenedWith config c used before := by
  intro self later j c frame w past hj hp
  have hself : Ledger env config self := (Ledger.build config).run actions
  have hledger : Ledger env config later := hself.run more
  have hlater : Later self later := Later.run hself more
  obtain ⟨used,before,rfl,hopened,hlast⟩ := (hledger.fresher.always.of_suffix hp).1
  have hpre : received (.received (.request frame j) :: before) <+: later.client.channel.sent :=
    (received_of_suffix ((List.suffix_cons _ _).trans hp)).trans hledger.received_isPrefix
  -- the request is behind the configuration in the channel
  have hplace : later.client.channel.sent[(received before).length]? = some (.request frame j) :=
    getElem?_of_isPrefix hpre (by simp [received])
  obtain ⟨call,hcall,_,hticket⟩ := hledger.request_call hplace
  have hle := hlater.behind j call _ hj hcall hticket
  have hk : self.client.channel.sent[k]? = some (.configure config') :=
    hself.tickets i _ k hconfigured rfl
  have hlt := (List.getElem?_eq_some_iff.mp hk).1
  have hk' : (received (.received (.request frame j) :: before))[k]? =
      some (.configure config') := by
    rw [getElem?_prefix_of_lt hpre (by simp [received]; omega)]
    exact getElem?_of_isPrefix hlater.sent hk
  obtain ⟨k',config'',hkk,hk'',hl⟩ := exists_lastConfigure config hk'
  rw [hlast] at hl
  subst hl
  exact ⟨k',used,before,hkk,getElem?_of_isPrefix hpre hk'',rfl,hopened⟩

/-- A request behind the first configuration of a client. -/
theorem request_follows_configure_loopback :
    let self := (build none).run Loopback.env
      [.call 0 (.configure (some Loopback.config)),.accept 0]
    let later := self.run Loopback.env [.inner .recv,.inner .finish,.inner .tick,.inner .finish,
      .call 0 (.request (Loopback.echo [1])),.accept 1,.inner .recv,.inner .finish]
    ∃ past, .wrote 0 (.request 1) (Loopback.echo [1]) .complete :: past <:+
        later.client.task.trace ∧
      ∃ (k' : ℕ) (used : ConnectionConfig) (before : Trace), 0 ≤ k' ∧
        later.client.channel.sent[k']? = some (.configure (some used)) ∧
        past = .received (.request (Loopback.echo [1]) 1) :: before ∧
        OpenedWith none 0 used before := by
  intro self later
  have hm : .wrote 0 (.request 1) (Loopback.echo [1]) .complete ∈ later.client.task.trace := by
    decide +kernel
  obtain ⟨new,past,htrace⟩ := List.append_of_mem hm
  refine ⟨past,⟨new,htrace.symm⟩,?_⟩
  exact request_follows_configure Loopback.env none _ _ 0 0 (some Loopback.config) 0
    (by decide +kernel) 1 0 _ _ past (by decide +kernel) ⟨new,htrace.symm⟩

theorem run_inner {schedule : List Action} (hs : ∀ action ∈ schedule, action.isInner = true) :
    self.run env (schedule.map .inner) = { self with client := self.client.run env schedule } := by
  induction schedule generalizing self with
  | nil => rfl
  | cons action schedule ih =>
    have hstep : self.step env (.inner action) =
        { self with client := self.client.step env action } := by
      simp [step,hs action List.mem_cons_self]
    exact (congrArg (fun self => run env self (schedule.map .inner)) hstep).trans
      (ih fun action ha => hs action (List.mem_cons_of_mem _ ha))

theorem drain_cases (n : ℕ) : ∀ action ∈ Client.drain n, action = .recv ∨ action = .finish := by
  intro action ha
  rcases List.mem_cons.mp ha with rfl | ha
  · exact .inr rfl
  · obtain ⟨pair,hp,ha⟩ := List.mem_flatten.mp ha
    rw [(List.mem_replicate.mp hp).2] at ha
    simpa using ha

theorem drain_isInner (n : ℕ) : ∀ action ∈ Client.drain n, action.isInner = true := by
  intro action ha
  rcases drain_cases n action ha with rfl | rfl <;> rfl

/-- A waiting call is never stuck. Once the task has taken more than sixteen further commands,
every request that was waiting is answered, whatever else has happened; and the task alone,
with at most thirty-three steps in which it takes commands and finishes its rounds, brings
every waiting call to its return. -/
theorem waiting_bounded (env : Env) (config : Option ConnectionConfig)
    (actions : List CallerAction) :
    let self := (build config).run env actions
    (∀ more (i : ℕ) call, self.calls[i]? = some call → call.progress = .waiting →
      self.client.channel.taken.length + 16 < (self.run env more).client.channel.taken.length →
      ∃ answer, .answered i answer ∈ (self.run env more).client.task.trace) ∧
    ∃ schedule : List Action, schedule.length ≤ 33 ∧
      (∀ action ∈ schedule, action = .recv ∨ action = .finish) ∧
      ∀ (i : ℕ) call, self.calls[i]? = some call → call.progress = .waiting →
        ∃ result, ((self.run env (schedule.map .inner)).step env (.wake i)).calls[i]? =
          some { call with progress := .returned result } := by
  intro self
  have hself : Ledger env config self := (Ledger.build config).run actions
  have hqueue := self.client.channel.bounded
  refine ⟨?_,Client.drain self.client.channel.queue.length,?_,drain_cases _,?_⟩
  · intro more i call hi hw hmore
    obtain ⟨n,message,k,rfl,hk⟩ := hself.waiting_place hi hw
    have hlater := hself.run more
    have hlt := (List.getElem?_eq_some_iff.mp hk).1
    rw [Channel.sent,List.length_append] at hlt
    have htaken := hlater.taken_length.1
    exact hlater.answered_of_lt (getElem?_of_isPrefix (Later.run hself more).sent hk) (by omega)
  · have hlen : ∀ n, (Client.drain n).length = 2 * n + 1 := by
      intro n
      simp [Client.drain,Nat.mul_comm]
    rw [hlen]
    omega
  · intro i call hi hw
    obtain ⟨n,message,k,rfl,hk⟩ := hself.waiting_place hi hw
    have hrunning := (hself.running (hself.borrowed _ (List.mem_of_getElem? hi) rfl)).2
    obtain ⟨hbusy,hempty,hsent⟩ := Client.run_drain env hrunning
    have hlater := hself.run ((Client.drain self.client.channel.queue.length).map .inner)
    rw [run_inner (drain_isInner _)] at hlater ⊢
    have hlt := (List.getElem?_eq_some_iff.mp hk).1
    have htaken := hlater.taken_length.2 hbusy
    rw [← hsent,Channel.sent,hempty,List.append_nil] at hlt
    rw [← hsent] at hk
    obtain ⟨answer,ha⟩ := hlater.answered_of_lt hk (by rw [htaken]; exact hlt)
    obtain ⟨answer',ha'⟩ := exists_answerOf ha
    refine ⟨answer'.result.map some,?_⟩
    dsimp only at ha'
    simp only [step,wake,hi,ha']
    exact getElem?_set_of_some hi

end Callers

end BloopClient
