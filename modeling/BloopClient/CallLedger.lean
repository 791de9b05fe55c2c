import BloopClient.Callers
import BloopClient.Tracelib.Table

/-!
# The ledger of calls

What holds between the calls, the channel and the task in every run: which place a call
has in the order of the channel, what the handles still allow, and what a call that has
returned was told.
-/

namespace BloopClient
open Tracelib ClientTask

variable {env : Env} {config : Option ConnectionConfig} {t t' : Trace} {i k : ℕ}

-- ════════════════════════════════════════════════════════════════════════
-- Answers and commands in the trace
-- ════════════════════════════════════════════════════════════════════════

theorem mem_of_answerOf {answer : Answer} (h : answerOf i t = some answer) :
    .answered i answer ∈ t := by
  induction t with
  | nil => cases h
  | cons e t ih =>
    cases e with
    | answered response answer' =>
      rw [answerOf] at h
      split at h
      · next hr =>
        cases h
        subst hr
        exact List.mem_cons_self
      · exact List.mem_cons_of_mem _ (ih h)
    | _ => exact List.mem_cons_of_mem _ (ih h)

theorem exists_answerOf {answer : Answer} (h : .answered i answer ∈ t) :
    ∃ answer', answerOf i t = some answer' := by
  induction t with
  | nil => cases h
  | cons e t ih =>
    cases e with
    | answered response answer' =>
      rw [answerOf]
      split
      · exact ⟨_,rfl⟩
      · next hr =>
        rcases List.mem_cons.mp h with he | h
        · cases he
          exact absurd rfl hr
        · exact ih h
    | _ =>
      rcases List.mem_cons.mp h with he | h
      · cases he
      · exact ih h

theorem mem_received_iff {command : Command} : command ∈ received t ↔ .received command ∈ t := by
  induction t with
  | nil => simp [received]
  | cons e t ih =>
    cases e with
    | received command' =>
      rw [received,List.mem_append,List.mem_singleton,List.mem_cons,ih,or_comm,
        Event.received.injEq]
    | _ => simpa [received] using ih

theorem Round.suffix {self task : ClientTask} {select : Select}
    (hr : Round env self select task) : self.trace <:+ task.trace := by
  have hcons : ∀ {e : Event} {t : Trace}, self.trace <:+ t → self.trace <:+ e :: t :=
    fun h => h.trans (List.suffix_cons _ _)
  have hrefl : self.trace <:+ self.trace := List.suffix_rfl
  cases hr with
  | ignored _ => exact hcons hrefl
  | configured _ hi _ => exact hcons ((hcons hrefl).trans hi.suffix)
  | refused _ => exact hcons (hcons hrefl)
  | offline _ _ => exact hcons (hcons hrefl)
  | answered _ _ _ => exact hcons (hcons (hcons (hcons hrefl)))
  | @answeredFatal message response connection raw _ _ _ =>
    exact hcons ((hcons (hcons (hcons hrefl))).trans (dropConnection_idles { self with
      trace := repliedTrace connection message raw response self.trace }).suffix)
  | @lost _ _ _ _ t _ _ _ hx =>
    exact hcons (((hcons hrefl).trans hx.aside.suffix).trans
      (dropConnection_idles { self with trace := t }).suffix)
  | shutdown hi _ => exact hcons ((hcons hrefl).trans hi.suffix)
  | woundDown hi _ => exact (hcons hrefl).trans hi.suffix
  | idle _ => exact hrefl
  | pinged _ _ hg => exact hg.idles.suffix
  | @pingLost _ t _ _ hg =>
    exact hg.idles.suffix.trans (dropConnection_idles { self with trace := t }).suffix
  | attempted _ _ ha => exact ha.extends.suffix

-- ════════════════════════════════════════════════════════════════════════
-- Steps of the client
-- ════════════════════════════════════════════════════════════════════════

namespace Client

variable {self client : Client} {action : Action}

/-- Whatever happens, the trace only grows. -/
theorem Moved.suffix (hm : Moved env self action client) (hs : Serving env config self) :
    self.task.trace <:+ client.task.trace := by
  cases hm with
  | finished hb => exact (Serving.handle_round hs.linked _).suffix
  | _ => exact List.suffix_rfl

/-- What is accepted goes behind everything accepted before. -/
theorem sent_of_send {command : Command} {channel : Channel Command 16}
    (hc : self.channel.send? command = some channel) :
    channel.sent = self.channel.sent ++ [command] := by
  obtain ⟨_,ht,hq⟩ := Channel.send?_eq_some.mp hc
  rw [Channel.sent,Channel.sent,ht,hq,List.append_assoc]

/-- Only calls of `shutdown` send anything without a handle. -/
theorem Moved.sent_of_inner (hm : Moved env self action client) (ha : action.isInner = true) :
    ∃ new, client.channel.sent = self.channel.sent ++ new ∧
      ∀ command ∈ new, command.isOrdinary = false := by
  have hsame : self.channel.sent = self.channel.sent ++ [] := (List.append_nil _).symm
  cases hm with
  | sent _ _ => cases ha
  | @accepted i _ _ hc =>
    refine ⟨[.shutdown i],sent_of_send hc,?_⟩
    intro command hm
    rw [List.mem_singleton.mp hm]
    rfl
  | @received command channel _ _ hc =>
    obtain ⟨hq,ht⟩ := Channel.recv?_eq_some.mp hc
    refine ⟨[],?_,by simp⟩
    rw [Channel.sent,Channel.sent,ht,hq]
    simp
  | _ => exact ⟨[],hsame,by simp⟩

theorem step_handles (ha : action.isInner = true) :
    (self.step env action).handles = self.handles := by
  cases action with
  | clone => cases ha
  | drop => cases ha
  | send command => cases ha
  | shutdown => cases ha
  | accept i =>
    dsimp only [step,accept]
    split
    · split <;> rfl
    · rfl
  | expire i =>
    dsimp only [step,expire]
    split <;> rfl
  | wake i =>
    dsimp only [step,wake]
    split <;> rfl
  | recv =>
    dsimp only [step,recv]
    split
    · split <;> rfl
    · rfl
  | tick =>
    dsimp only [step,tick]
    split <;> rfl
  | close =>
    dsimp only [step,close]
    split <;> rfl
  | finish =>
    dsimp only [step,finish]
    split <;> rfl

theorem Moved.running (hm : Moved env self action client) (ha : action ≠ .close) :
    client.running = self.running := by
  cases hm with
  | closed _ _ _ => exact absurd rfl ha
  | _ => rfl

/-- The loop ends only without a handle. -/
theorem step_running (hr : (self.step env action).running = false) :
    self.running = false ∨ self.handles = 0 := by
  by_cases ha : action = .close
  · subst ha
    dsimp only [step,close] at hr
    split at hr
    · next hg =>
      simp only [Bool.and_eq_true,beq_iff_eq] at hg
      exact .inr hg.1.1.2
    · exact .inl hr
  · exact .inl (((step_moved env self action).running ha).symm.trans hr)

end Client

/-- A fact about the task that every round keeps holds of the task of a client. -/
theorem Serving.induction {P : ClientTask → Prop} {client : Client}
    (h : Serving env config client) (hbuild : P (ClientTask.build config))
    (hround : ∀ self select task, Linked env self → P self → Round env self select task → P task) :
    P client.task := by
  obtain ⟨rounds,hr,_⟩ := h.served
  rw [hr]
  exact run_induction (Linked.build config) hbuild hround rounds

-- ════════════════════════════════════════════════════════════════════════
-- The ledger
-- ════════════════════════════════════════════════════════════════════════

namespace Callers

/-- How a call can stand. `none` and `some` in the last place say whether its command was
accepted. -/
inductive Standing (t : Trace) (i : ℕ) : AskCall → Prop
  | sending {h ask} : Standing t i ⟨h,ask,.sending,none⟩
  | waiting {h message k} : Standing t i ⟨h,.request message,.waiting,some k⟩
  | configured {h config k} : Standing t i ⟨h,.configure config,.returned (.ok none),some k⟩
  | expired {h message} :
      Standing t i ⟨h,.request message,.returned (.error .disconnected),none⟩
  | answered {h message answer k} (ha : .answered i answer ∈ t) :
      Standing t i ⟨h,.request message,.returned (answer.result.map some),some k⟩
  | dropped {h ask ticket} : Standing t i ⟨h,ask,.dropped,ticket⟩

theorem Standing.mono {call : AskCall} (h : Standing t i call) (ht : t <:+ t') :
    Standing t' i call := by
  cases h with
  | sending => exact .sending
  | waiting => exact .waiting
  | configured => exact .configured
  | expired => exact .expired
  | answered ha => exact .answered (ht.subset ha)
  | dropped => exact .dropped

/-- What holds between the calls, the handles, the channel and the task. -/
structure Ledger (env : Env) (config : Option ConnectionConfig) (callers : Callers) : Prop where
  reached : ∃ actions, callers.client = (Client.build config).run env actions
  serving : Serving env config callers.client
  handles : callers.client.handles = callers.live.count true
  borrowed : ∀ call ∈ callers.calls, call.progress.isPending = true →
    callers.live[call.handle]? = some true
  lasting : callers.client.running = false → callers.client.handles = 0
  tickets : ∀ (i : ℕ) call k, callers.calls[i]? = some call → call.ticket = some k →
    callers.client.channel.sent[k]? = some (call.ask.command i)
  sources : ∀ (k : ℕ) command, callers.client.channel.sent[k]? = some command →
    command.isOrdinary = true → ∃ (i : ℕ) (call : AskCall), callers.calls[i]? = some call ∧
      call.ticket = some k ∧ command = call.ask.command i
  distinct : ∀ (i j : ℕ) call call' k, callers.calls[i]? = some call →
    callers.calls[j]? = some call' → call.ticket = some k → call'.ticket = some k → i = j
  standing : ∀ (i : ℕ) call, callers.calls[i]? = some call →
    Standing callers.client.task.trace i call

namespace Ledger

variable {self callers : Callers}

theorem build (config : Option ConnectionConfig) : Ledger env config (Callers.build config) where
  reached := ⟨[],rfl⟩
  serving := Serving.build config
  handles := rfl
  borrowed := by simp [Callers.build]
  lasting := by simp [Callers.build,Client.build]
  tickets := by simp [Callers.build]
  sources := by simp [Callers.build,Client.build,Channel.sent,Channel.empty]
  distinct := by simp [Callers.build]
  standing := by simp [Callers.build]

/-- A handle that is there keeps the task in its loop. -/
theorem running (h : Ledger env config self) {n : ℕ} (hl : self.live[n]? = some true) :
    0 < self.client.handles ∧ self.client.running = true := by
  have hpos : 0 < self.client.handles := by
    rw [h.handles]
    exact List.count_pos_iff.mpr (List.mem_of_getElem? hl)
  refine ⟨hpos,?_⟩
  cases hr : self.client.running with
  | true => rfl
  | false => exact absurd (h.lasting hr) (by omega)

/-- A step of the client that the calls have no part in. -/
theorem step_client (h : Ledger env config self) {action : Action} {live : List Bool}
    (hsent : ∃ new, (self.client.step env action).channel.sent = self.client.channel.sent ++ new ∧
      ∀ command ∈ new, command.isOrdinary = false)
    (hhandles : (self.client.step env action).handles = live.count true)
    (hborrowed : ∀ call ∈ self.calls, call.progress.isPending = true →
      live[call.handle]? = some true)
    (hlasting : (self.client.step env action).running = false →
      (self.client.step env action).handles = 0) :
    Ledger env config ⟨self.client.step env action,live,self.calls⟩ := by
  have hm := Client.step_moved env self.client action
  obtain ⟨new,hnew,hord⟩ := hsent
  refine ⟨?_,h.serving.moved hm,hhandles,hborrowed,hlasting,?_,?_,h.distinct,?_⟩
  · obtain ⟨actions,ha⟩ := h.reached
    refine ⟨actions ++ [action],?_⟩
    rw [ha]
    simp [Client.run,List.foldl_append]
  · intro i call k hi hk
    show (self.client.step env action).channel.sent[k]? = _
    rw [hnew]
    exact getElem?_of_isPrefix (List.prefix_append _ _) (h.tickets i call k hi hk)
  · intro k command hk ho
    have hk' : (self.client.channel.sent ++ new)[k]? = some command := hnew ▸ hk
    refine h.sources k command ?_ ho
    rcases Nat.lt_or_ge k self.client.channel.sent.length with hlt | hge
    · rwa [List.getElem?_append_left hlt] at hk'
    · rw [List.getElem?_append_right hge] at hk'
      exact absurd (hord _ (List.mem_of_getElem? hk')) (by simp [ho])
  · intro i call hi
    exact (h.standing i call hi).mono (hm.suffix h.serving)

theorem called (h : Ledger env config self) {n : ℕ} {ask : Ask}
    (hl : self.live[n]? = some true) :
    Ledger env config { self with calls := self.calls ++ [⟨n,ask,.sending,none⟩] } := by
  refine ⟨h.reached,h.serving,h.handles,?_,h.lasting,?_,?_,?_,?_⟩
  · intro call hc hp
    rcases List.mem_append.mp hc with hc | hc
    · exact h.borrowed call hc hp
    · rw [List.mem_singleton.mp hc]
      exact hl
  · intro i call k hi hk
    rcases getElem?_concat_cases hi with ⟨_,rfl⟩ | hi
    · cases hk
    · exact h.tickets i call k hi hk
  · intro k command hk ho
    obtain ⟨i,call,hi,ht,ha⟩ := h.sources k command hk ho
    exact ⟨i,call,getElem?_concat_of_some hi,ht,ha⟩
  · intro i j call call' k hi hj hk hk'
    rcases getElem?_concat_cases hi with ⟨_,rfl⟩ | hi
    · cases hk
    rcases getElem?_concat_cases hj with ⟨_,rfl⟩ | hj
    · cases hk'
    exact h.distinct i j call call' k hi hj hk hk'
  · intro i call hi
    rcases getElem?_concat_cases hi with ⟨_,rfl⟩ | hi
    · exact .sending
    · exact h.standing i call hi

/-- The command of a call goes in behind all others. -/
theorem accepted (h : Ledger env config self) {n : ℕ} {ask : Ask} {ticket : Option ℕ}
    {channel : Channel Command 16} (hi : self.calls[i]? = some ⟨n,ask,.sending,ticket⟩)
    (hc : self.client.channel.send? (ask.command i) = some channel) :
    Ledger env config { self with
      client := { self.client with channel }
      calls := self.calls.set i ⟨n,ask,ask.accepted,some self.client.channel.sent.length⟩ } := by
  have hsent : channel.sent = self.client.channel.sent ++ [ask.command i] :=
    Client.sent_of_send hc
  have hord : (ask.command i).isOrdinary = true := by cases ask <;> rfl
  have hlive : self.live[n]? = some true :=
    h.borrowed _ (List.mem_of_getElem? hi) rfl
  have hstep : { self.client with channel } = self.client.step env (.send (ask.command i)) := by
    have hpos := (h.running hlive).1
    simp only [Client.step,Client.send]
    rw [if_neg (by simp [hord]; omega),hc]
  refine ⟨?_,h.serving.moved (.sent hord hc),h.handles,?_,h.lasting,?_,?_,?_,?_⟩
  · obtain ⟨actions,ha⟩ := h.reached
    refine ⟨actions ++ [.send (ask.command i)],?_⟩
    show { self.client with channel } = _
    rw [hstep,ha]
    simp [Client.run,List.foldl_append]
  · intro call hm hp
    rcases List.mem_or_eq_of_mem_set hm with hm | rfl
    · exact h.borrowed call hm hp
    · exact hlive
  · intro j call k hj hk
    show channel.sent[k]? = _
    rw [hsent]
    rcases getElem?_set_cases hj with ⟨rfl,rfl⟩ | ⟨_,hj⟩
    · cases hk
      simp
    · exact getElem?_concat_of_some (h.tickets j call k hj hk)
  · intro k command hk ho
    have hk' : (self.client.channel.sent ++ [ask.command i])[k]? = some command := hsent ▸ hk
    rcases getElem?_concat_cases hk' with ⟨rfl,rfl⟩ | hk
    · exact ⟨i,_,getElem?_set_of_some hi,rfl,rfl⟩
    · obtain ⟨j,call,hj,ht,ha⟩ := h.sources k command hk ho
      have hij : j ≠ i := by
        rintro rfl
        rw [hi,Option.some.injEq] at hj
        subst hj
        cases h.standing _ _ hi with
        | sending => cases ht
      refine ⟨j,call,?_,ht,ha⟩
      rw [List.getElem?_set_ne hij.symm]
      exact hj
  · intro j j' call call' k hj hj' hk hk'
    -- the place of the call is beyond the place of any other
    have hnew : ∀ {j : ℕ} {call : AskCall}, self.calls[j]? = some call →
        call.ticket ≠ some self.client.channel.sent.length := by
      intro j call hj ht
      have hlt := (List.getElem?_eq_some_iff.mp (h.tickets j call _ hj ht)).1
      omega
    rcases getElem?_set_cases hj with ⟨rfl,rfl⟩ | ⟨_,hold⟩ <;>
      rcases getElem?_set_cases hj' with ⟨rfl,rfl⟩ | ⟨_,hold'⟩
    · rfl
    · exact absurd (hk'.trans hk.symm) (hnew hold')
    · exact absurd (hk.trans hk'.symm) (hnew hold)
    · exact h.distinct j j' call call' k hold hold' hk hk'
  · intro j call hj
    rcases getElem?_set_cases hj with ⟨rfl,rfl⟩ | ⟨_,hj⟩
    · cases ask with
      | configure config => exact .configured
      | request message => exact .waiting
    · exact h.standing j call hj

/-- A call comes to its end. It was told what the trace holds. -/
theorem settled (h : Ledger env config self) {call : AskCall} {progress : Progress}
    (hi : self.calls[i]? = some call) (hs : Settles self i call progress) :
    Ledger env config { self with calls := self.calls.set i { call with progress } } := by
  have hdone : progress.isPending = false := by cases hs <;> rfl
  refine ⟨h.reached,h.serving,h.handles,?_,h.lasting,?_,?_,?_,?_⟩
  · intro call' hm hp
    rcases List.mem_or_eq_of_mem_set hm with hm | rfl
    · exact h.borrowed call' hm hp
    · exact absurd (hdone.symm.trans hp) (by simp)
  · intro j call' k hj hk
    rcases getElem?_set_cases hj with ⟨rfl,rfl⟩ | ⟨_,hj⟩
    · exact h.tickets _ call k hi hk
    · exact h.tickets j call' k hj hk
  · intro k command hk ho
    obtain ⟨j,call',hj,ht,ha⟩ := h.sources k command hk ho
    by_cases hij : j = i
    · subst hij
      rw [hi,Option.some.injEq] at hj
      subst hj
      exact ⟨j,_,getElem?_set_of_some hi,ht,ha⟩
    · refine ⟨j,call',?_,ht,ha⟩
      rw [List.getElem?_set_ne (Ne.symm hij)]
      exact hj
  · intro j j' call₁ call₂ k hj hj' hk hk'
    rcases getElem?_set_cases hj with ⟨rfl,rfl⟩ | ⟨_,hold⟩ <;>
      rcases getElem?_set_cases hj' with ⟨rfl,rfl⟩ | ⟨_,hold'⟩
    · rfl
    · exact h.distinct _ _ call call₂ k hi hold' hk hk'
    · exact h.distinct _ _ call₁ call k hold hi hk hk'
    · exact h.distinct j j' call₁ call₂ k hold hold' hk hk'
  · intro j call' hj
    rcases getElem?_set_cases hj with ⟨rfl,rfl⟩ | ⟨_,hj⟩
    · have hstand := h.standing _ call hi
      cases hs with
      | expired ha hp =>
        cases hstand with
        | sending =>
          cases ha
          exact .expired
        | _ => cases hp
      | woken hp ha =>
        cases hstand with
        | waiting => exact .answered (mem_of_answerOf ha)
        | _ => cases hp
      | dropped hp => exact .dropped
    · exact h.standing j call' hj

theorem moved (h : Ledger env config self) (hm : Moved env self callers) :
    Ledger env config callers := by
  cases hm with
  | idle => exact h
  | @cloned n hl =>
    obtain ⟨hpos,hr⟩ := h.running hl
    have hstep : self.client.step env .clone =
        { self.client with handles := self.client.handles + 1 } := by
      simp only [Client.step]
      rw [if_neg (by omega)]
    refine h.step_client ⟨[],by simp [hstep],by simp⟩ ?_ ?_ ?_
    · rw [hstep,List.count_append]
      simp [h.handles]
    · intro call hc hp
      exact getElem?_concat_of_some (h.borrowed call hc hp)
    · rw [hstep]
      intro hr'
      exact absurd (hr.symm.trans hr') (by simp)
  | @discarded n action hl hb ha =>
    obtain ⟨hpos,hr⟩ := h.running hl
    have hstep : (self.client.step env action).handles = self.client.handles - 1 ∧
        (self.client.step env action).running = true ∧
        (self.client.step env action).channel = self.client.channel := by
      rcases ha with rfl | rfl
      · exact ⟨rfl,hr,rfl⟩
      · simp only [Client.step,Client.shutdown]
        rw [if_neg (by omega)]
        exact ⟨rfl,hr,rfl⟩
    refine h.step_client ⟨[],by simp [hstep.2.2],by simp⟩ ?_ ?_ ?_
    · obtain ⟨hlt,hn⟩ := List.getElem?_eq_some_iff.mp hl
      rw [hstep.1,List.count_set hlt,h.handles]
      simp [hn]
    · intro call hc hp
      have hne : call.handle ≠ n := by
        intro hn
        exact absurd ((hb call hc hn).symm.trans hp) (by simp)
      rw [List.getElem?_set_ne hne.symm]
      exact h.borrowed call hc hp
    · intro hr'
      exact absurd (hstep.2.1.symm.trans hr') (by simp)
  | called hl => exact h.called hl
  | accepted hi hc => exact h.accepted hi hc
  | settled hi hs => exact h.settled hi hs
  | @moved action ha =>
    refine h.step_client ((Client.step_moved env self.client action).sent_of_inner ha)
      ((Client.step_handles ha).trans h.handles) h.borrowed ?_
    intro hr
    rw [Client.step_handles ha]
    rcases Client.step_running hr with hr | hz
    · exact h.lasting hr
    · exact hz

theorem run (h : Ledger env config self) (actions : List CallerAction) :
    Ledger env config (self.run env actions) :=
  run_induction h (fun _ _ h hm => h.moved hm) actions

end Ledger

end Callers

end BloopClient
