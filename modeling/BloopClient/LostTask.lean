import BloopClient.CallOrder

/-!
# A task that is lost

The connection task ends when the last handle is gone. It can be lost before that: an
on-connect hook panics in it, a ticker with a period of zero does, or the runtime it was
spawned on goes away. The receiver of the channel is lost with it. A command that waits for
room is then refused, and the oneshots of those in the queue are dropped, which callers are
told as `Shutdown`.

A run with a lost task is followed by one of the callers alone, in which the calls that were
told so have been given up instead. What holds of every call there holds of the others here.
-/

namespace BloopClient
open Tracelib ClientTask

/-- Callers of a task that can be lost. What the round in the middle of which it was lost had
done is not kept. -/
structure Exposed where
  callers : Callers
  lost : Bool

inductive ExposedAction
  | act (action : CallerAction)
  | lose
  | fail (i : ℕ)
  deriving DecidableEq, Repr

/-- What takes the task, or a channel that is open. A call of `shutdown` returns without
them: its command is refused or its oneshot dropped, as if its timer had fired. -/
def CallerAction.needsTask : CallerAction → Bool
  | .accept _ | .expire _ => true
  | .inner (.expire _) | .inner (.wake _) => false
  | .inner _ => true
  | _ => false

namespace Exposed

def build (config : Option ConnectionConfig) : Exposed := ⟨Callers.build config,false⟩

variable (env : Env) (self : Exposed)

def trace : Trace := self.callers.client.task.trace

/-- A call is told that the task is gone: the channel refuses its command, or its oneshot was
dropped without an answer. -/
def fail (i : ℕ) : Exposed :=
  match self.callers.calls[i]? with
  | some call =>
    if self.lost ∧ (call.progress = .sending ∨
        call.progress = .waiting ∧ answerOf i self.trace = none) then
      { self with callers := { self.callers with
          calls := self.callers.calls.set i { call with
            progress := .returned (.error .shutdown) } } }
    else self
  | none => self

def step : ExposedAction → Exposed
  | .act action =>
    if self.lost && action.needsTask then self
    else { self with callers := self.callers.step env action }
  | .lose => if self.callers.client.ended then self else { self with lost := true }
  | .fail i => self.fail i

def run (actions : List ExposedAction) : Exposed := actions.foldl (step env) self

/-- The ways an action can go. Without the task nothing is received or accepted. -/
inductive Moved (env : Env) (self : Exposed) : Exposed → Prop
  | idle : Moved env self self
  | acted {callers} (hm : Callers.Moved env self.callers callers)
      (hl : self.lost = true → callers.client.task = self.callers.client.task) :
      Moved env self { self with callers }
  | lost : Moved env self { self with lost := true }
  | failed {i : ℕ} {call} (hl : self.lost = true) (hi : self.callers.calls[i]? = some call)
      (hp : call.progress = .sending ∨
        call.progress = .waiting ∧ answerOf i self.trace = none) :
      Moved env self { self with callers := { self.callers with
        calls := self.callers.calls.set i { call with
          progress := .returned (.error .shutdown) } } }

variable {env self} {config : Option ConnectionConfig} {exposed : Exposed}

/-- What does not take the task leaves it alone. -/
theorem step_task {action : CallerAction} {callers : Callers} (ha : action.needsTask = false) :
    (callers.step env action).client.task = callers.client.task := by
  have hdiscard : ∀ h action, action = .drop ∨ action = .shutdown →
      (callers.discard env h action).client.task = callers.client.task := by
    intro h action ha
    dsimp only [Callers.discard]
    split
    · rcases ha with rfl | rfl
      · rfl
      · dsimp only [Client.step,Client.shutdown]
        split <;> rfl
    · rfl
  cases action with
  | clone h =>
    dsimp only [Callers.step,Callers.clone,Client.step]
    repeat' split
    all_goals rfl
  | drop h => exact hdiscard h _ (.inl rfl)
  | shutdown h => exact hdiscard h _ (.inr rfl)
  | call h ask =>
    dsimp only [Callers.step,Callers.call]
    split <;> rfl
  | accept i => cases ha
  | expire i => cases ha
  | wake i =>
    dsimp only [Callers.step,Callers.wake]
    repeat' split
    all_goals rfl
  | cancel i =>
    dsimp only [Callers.step,Callers.cancel]
    repeat' split
    all_goals rfl
  | inner action =>
    cases action with
    | expire i =>
      dsimp only [Callers.step,Client.step,Client.expire]
      repeat' split
      all_goals rfl
    | wake i =>
      dsimp only [Callers.step,Client.step,Client.wake]
      repeat' split
      all_goals rfl
    | _ => cases ha

theorem step_moved (action : ExposedAction) : Moved env self (self.step env action) := by
  cases action with
  | act action =>
    dsimp only [step]
    split
    · exact .idle
    · next hg =>
      refine .acted (Callers.step_moved action) ?_
      intro hl
      exact step_task (by simpa [hl] using hg)
  | lose =>
    dsimp only [step]
    split
    · exact .idle
    · exact .lost
  | fail i =>
    dsimp only [step,fail]
    split
    · next call hi =>
      split
      · next hg => exact .failed hg.1 hi hg.2
      · exact .idle
    · exact .idle

-- ════════════════════════════════════════════════════════════════════════
-- The callers alone
-- ════════════════════════════════════════════════════════════════════════

/-- A call that was told that the task is gone, as the callers alone have it. A request that
had been accepted is without an answer, and stays so. -/
structure Refused (exposed : Exposed) (i : ℕ) (call : AskCall) : Prop where
  dropped : call.progress = .dropped
  told : exposed.callers.calls[i]? = some { call with progress := .returned (.error .shutdown) }
  lost : exposed.lost = true
  unanswered : call.ticket ≠ none →
    (∃ message, call.ask = .request message) ∧ answerOf i exposed.trace = none

/-- The callers alone follow a run if they agree on everything but the calls that were told
that the task is gone. -/
structure Follows (exposed : Exposed) (callers : Callers) : Prop where
  client : callers.client = exposed.callers.client
  live : callers.live = exposed.callers.live
  length : callers.calls.length = exposed.callers.calls.length
  calls : ∀ (i : ℕ) call, callers.calls[i]? = some call →
    exposed.callers.calls[i]? = some call ∨ Refused exposed i call

namespace Follows

variable {callers : Callers} {i : ℕ} {call : AskCall}

theorem refl (callers : Callers) (lost : Bool) : Follows ⟨callers,lost⟩ callers :=
  ⟨rfl,rfl,rfl,fun _ _ hi => .inl hi⟩

/-- A call is there on both sides. -/
theorem exists_call (h : Follows self callers) (hi : self.callers.calls[i]? = some call) :
    ∃ call', callers.calls[i]? = some call' ∧ (call' = call ∨ Refused self i call') := by
  have hlt : i < callers.calls.length := by
    rw [h.length]
    exact (List.getElem?_eq_some_iff.mp hi).1
  refine ⟨callers.calls[i],List.getElem?_eq_getElem hlt,?_⟩
  rcases h.calls i _ (List.getElem?_eq_getElem hlt) with hsame | hr
  · exact .inl (Option.some.inj (hsame.symm.trans hi))
  · exact .inr hr

/-- A call that is pending is the same on both sides. -/
theorem pending (h : Follows self callers) (hi : self.callers.calls[i]? = some call)
    (hp : call.progress.isPending = true) : callers.calls[i]? = some call := by
  obtain ⟨call',hi',rfl | hr⟩ := h.exists_call hi
  · exact hi'
  · rw [hr.told,Option.some.injEq] at hi
    subst hi
    cases hp

/-- A call that a step leaves alone is as it was, on both sides. -/
theorem keep {j : ℕ} {now : AskCall} (h : Follows self callers)
    (hj : callers.calls[j]? = some now)
    (hcalls : ∀ call, self.callers.calls[j]? = some call → exposed.callers.calls[j]? = some call)
    (hlost : self.lost = true → exposed.lost = true ∧ exposed.trace = self.trace) :
    exposed.callers.calls[j]? = some now ∨ Refused exposed j now := by
  rcases h.calls j now hj with hsame | hr
  · exact .inl (hcalls now hsame)
  · obtain ⟨hl,ht⟩ := hlost hr.lost
    exact .inr ⟨hr.dropped,hcalls _ hr.told,hl,by rw [ht]; exact hr.unanswered⟩

/-- What a step does to no call. -/
theorem set_client (h : Follows self callers) {client : Client}
    (ht : self.lost = true → client.task = self.callers.client.task) (live : List Bool) :
    Follows { self with callers := ⟨client,live,self.callers.calls⟩ }
      ⟨client,live,callers.calls⟩ := by
  refine ⟨rfl,rfl,h.length,?_⟩
  intro j now hj
  refine h.keep hj (fun _ hi => hi) ?_
  exact fun hl => ⟨hl,congrArg ClientTask.trace (ht hl)⟩

/-- What a step does to one call, it does on both sides. -/
theorem set (h : Follows self callers) {client : Client} {call' : AskCall}
    (ht : self.lost = true → client.task = self.callers.client.task) (live : List Bool) :
    Follows { self with callers := ⟨client,live,self.callers.calls.set i call'⟩ }
      ⟨client,live,callers.calls.set i call'⟩ := by
  refine ⟨rfl,rfl,by simp [h.length],?_⟩
  intro j now hj
  rcases getElem?_set_cases hj with ⟨rfl,rfl⟩ | ⟨hne,hold⟩
  · refine .inl (List.getElem?_set_self ?_)
    rw [← h.length,← List.length_set]
    exact (List.getElem?_eq_some_iff.mp hj).1
  · refine h.keep hold ?_ (fun hl => ⟨hl,congrArg ClientTask.trace (ht hl)⟩)
    intro call hcall
    exact (List.getElem?_set_ne hne.symm).trans hcall

/-- A step of the callers, with a task that may be lost. -/
theorem acted {next : Callers} (h : Follows self callers)
    (hm : Callers.Moved env self.callers next)
    (ht : self.lost = true → next.client.task = self.callers.client.task) :
    ∃ callers', Callers.Moved env callers callers' ∧
      Follows { self with callers := next } callers' := by
  obtain ⟨client,live,calls⟩ := callers
  obtain rfl : client = self.callers.client := h.client
  obtain rfl : live = self.callers.live := h.live
  cases hm with
  | idle => exact ⟨_,.idle,h⟩
  | cloned hl => exact ⟨_,.cloned hl,h.set_client ht _⟩
  | @discarded n action hl hb ha =>
    refine ⟨_,.discarded hl ?_ ha,h.set_client ht _⟩
    intro call hc hh
    obtain ⟨i,hi⟩ := List.mem_iff_getElem?.mp hc
    rcases h.calls i call hi with hsame | hr
    · exact hb call (List.mem_of_getElem? hsame) hh
    · rw [hr.dropped]
      rfl
  | @called n ask hl =>
    have hcalled : Callers.Moved env ⟨self.callers.client,self.callers.live,calls⟩
        ⟨self.callers.client,self.callers.live,calls ++ [⟨n,ask,.sending,none⟩]⟩ := .called hl
    refine ⟨_,hcalled,rfl,rfl,by simp [h.length],?_⟩
    intro i call hi
    rcases getElem?_concat_cases hi with ⟨rfl,rfl⟩ | hi
    · refine .inl ?_
      rw [h.length]
      simp
    · exact h.keep hi (fun _ hcall => getElem?_concat_of_some hcall) (fun hl => ⟨hl,rfl⟩)
  | accepted hi hc =>
    exact ⟨_,.accepted (h.pending hi rfl) hc,h.set ht _⟩
  | @settled i call progress hi hs =>
    have hpending : call.progress.isPending = true := by
      cases hs with
      | expired _ hp => simp [hp,Progress.isPending]
      | woken hp _ => simp [hp,Progress.isPending]
      | dropped hp => exact hp
    have hs' : Callers.Settles ⟨self.callers.client,self.callers.live,calls⟩ i call progress := by
      cases hs with
      | expired ha hp => exact .expired ha hp
      | woken hp ha => exact .woken hp ha
      | dropped hp => exact .dropped hp
    exact ⟨_,.settled (h.pending hi hpending) hs',h.set ht _⟩
  | moved ha => exact ⟨_,.moved ha,h.set_client ht _⟩

/-- Where a call is told that the task is gone, the callers alone give it up. -/
theorem failed (h : Follows self callers) (hl : Callers.Ledger env config callers)
    (hlost : self.lost = true) (hi : self.callers.calls[i]? = some call)
    (hp : call.progress = .sending ∨ call.progress = .waiting ∧ answerOf i self.trace = none) :
    ∃ callers', Callers.Moved env callers callers' ∧
      Follows { self with callers := { self.callers with
        calls := self.callers.calls.set i { call with
          progress := .returned (.error .shutdown) } } } callers' := by
  have hpending : call.progress.isPending = true := by
    rcases hp with hp | ⟨hp,_⟩ <;> rw [hp] <;> rfl
  have hi' := h.pending hi hpending
  refine ⟨_,.settled hi' (.dropped hpending),h.client,h.live,by simp [h.length],?_⟩
  intro j now hj
  rcases getElem?_set_cases hj with ⟨rfl,rfl⟩ | ⟨hne,hj⟩
  · refine .inr ⟨rfl,getElem?_set_of_some hi,hlost,?_⟩
    intro hticket
    -- a command that still waits for room has no place in the channel
    cases hl.standing _ call hi' with
    | sending => exact absurd rfl hticket
    | waiting =>
      rcases hp with hp | ⟨_,ha⟩
      · cases hp
      · exact ⟨⟨_,rfl⟩,ha⟩
    | _ => cases hpending
  · refine h.keep hj ?_ (fun hl => ⟨hl,rfl⟩)
    intro call' hcall
    exact (List.getElem?_set_ne hne.symm).trans hcall

theorem moved (h : Follows self callers) (hl : Callers.Ledger env config callers)
    (hm : Moved env self exposed) :
    ∃ callers', Callers.Moved env callers callers' ∧ Follows exposed callers' := by
  cases hm with
  | idle => exact ⟨_,.idle,h⟩
  | acted hm ht => exact h.acted hm ht
  | lost =>
    refine ⟨_,.idle,h.client,h.live,h.length,?_⟩
    exact fun j now hj => h.keep hj (fun _ hi => hi) (fun _ => ⟨rfl,rfl⟩)
  | failed hlost hi hp => exact h.failed hl hlost hi hp

/-- A whole run is followed by one of the callers alone. -/
theorem run {start : Callers} (h : Follows self callers) (hl : Callers.Ledger env config callers)
    (hs : Callers.Later start callers) (actions : List ExposedAction) :
    ∃ later, Callers.Ledger env config later ∧ Callers.Later start later ∧
      Follows (self.run env actions) later := by
  induction actions generalizing self callers with
  | nil => exact ⟨callers,hl,hs,h⟩
  | cons action actions ih =>
    obtain ⟨next,hm,hnext⟩ := h.moved hl (step_moved action)
    exact ih hnext (hl.moved hm) (hs.moved hl hm)

end Follows

/-- Every run is followed by the callers alone. -/
theorem exists_follows (env : Env) (config : Option ConnectionConfig)
    (actions : List ExposedAction) : ∃ callers, Callers.Ledger env config callers ∧
      Follows ((build config).run env actions) callers := by
  have hbuild : Callers.Ledger env config (Callers.build config) := .build config
  obtain ⟨callers,hl,_,h⟩ := (Follows.refl (Callers.build config) false).run hbuild (.refl _)
    actions
  exact ⟨callers,hl,h⟩

-- ════════════════════════════════════════════════════════════════════════
-- Results
-- ════════════════════════════════════════════════════════════════════════

section Results

variable {callers : Callers} {i h : ℕ} {ticket : Option ℕ}
  {result : Except RequestError (Option RawMessage)}

/-- A call that has returned is known to the callers alone, or was told that the task is
gone. -/
theorem Follows.returned {ask : Ask} (hf : Follows self callers)
    (hi : self.callers.calls[i]? = some ⟨h,ask,.returned result,ticket⟩) :
    callers.calls[i]? = some ⟨h,ask,.returned result,ticket⟩ ∨
      callers.calls[i]? = some ⟨h,ask,.dropped,ticket⟩ ∧ result = .error .shutdown ∧
        self.lost = true ∧ (ticket ≠ none →
          (∃ message, ask = .request message) ∧ answerOf i self.trace = none) := by
  obtain ⟨⟨h',ask',progress,ticket'⟩,hi',he | hr⟩ := hf.exists_call hi
  · rw [he] at hi'
    exact .inl hi'
  · obtain ⟨hdropped,htold,hlost,hunanswered⟩ := hr
    rw [hi,Option.some.injEq] at htold
    cases htold
    dsimp only at hdropped
    subst hdropped
    exact .inr ⟨hi',rfl,hlost,hunanswered⟩

/-- Whatever happens from here on, the task has nothing to do with a call that is over and
whose command was not accepted. -/
theorem Follows.not_about (hf : Follows self callers) (hl : Callers.Ledger env config callers)
    {call : AskCall} (hi : callers.calls[i]? = some call) (ht : call.ticket = none)
    (hp : call.progress.isPending = false) (more : List ExposedAction) {e : Event}
    (he : e ∈ (self.run env more).trace) : e.isAbout i = false := by
  obtain ⟨later,hledger,hlater,hfollows⟩ := hf.run hl (.refl callers) more
  obtain ⟨call',hi',hbecomes⟩ := hlater.calls i call hi
  rw [hbecomes.ended hp] at hi'
  refine hledger.not_about hi' ht ?_
  rw [hfollows.client]
  exact he

/-- The answers a oneshot has got are those it has for good. -/
theorem Follows.countP_answers (hf : Follows self callers)
    (hl : Callers.Ledger env config callers) {answer : Answer}
    (ha : .answered i answer ∈ self.trace) (more : List ExposedAction) :
    (self.run env more).trace.countP (Event.answers i) = 1 := by
  obtain ⟨later,hledger,hlater,hfollows⟩ := hf.run hl (.refl callers) more
  have hlast : .answered i answer ∈ later.client.task.trace := by
    refine hlater.trace.subset ?_
    rw [hf.client]
    exact ha
  have hone := hledger.answers_eq_one hlast
  rw [hfollows.client] at hone
  exact hone

/-- A lost task does nothing any more. -/
theorem run_lost (env : Env) (hlost : self.lost = true) (more : List ExposedAction) :
    (self.run env more).lost = true ∧
      (self.run env more).callers.client.task = self.callers.client.task := by
  induction more generalizing self with
  | nil => exact ⟨hlost,rfl⟩
  | cons action more ih =>
    have hstep : (self.step env action).lost = true ∧
        (self.step env action).callers.client.task = self.callers.client.task := by
      have hm : Moved env self (self.step env action) := step_moved action
      generalize self.step env action = next at hm ⊢
      cases hm with
      | idle => exact ⟨hlost,rfl⟩
      | acted _ ht => exact ⟨hlost,ht hlost⟩
      | lost => exact ⟨rfl,rfl⟩
      | failed _ _ _ => exact ⟨hlost,rfl⟩
    obtain ⟨hl,ht⟩ := ih hstep.1
    exact ⟨hl,ht.trans hstep.2⟩

theorem countP_of_answerOf {t : Trace} (ha : answerOf i t = none) :
    t.countP (Event.answers i) = 0 := by
  rw [List.countP_eq_zero]
  intro e he hanswers
  cases e with
  | answered response answer =>
    obtain rfl : response = i := by simpa [Event.answers] using hanswers
    obtain ⟨answer',hsome⟩ := exists_answerOf he
    rw [ha] at hsome
    cases hsome
  | _ => cases hanswers

/-- Once the task is lost, a pending call returns in one step. -/
theorem returns_of_lost {call : AskCall} (hlost : self.lost = true)
    (hi : self.callers.calls[i]? = some call) (hp : call.progress.isPending = true) :
    ∃ action result, (action = .act (.wake i) ∨ action = .fail i) ∧
      (self.step env action).callers.calls[i]? =
        some { call with progress := .returned result } := by
  have hfail : call.progress = .sending ∨
      call.progress = .waiting ∧ answerOf i self.trace = none →
      (self.step env (.fail i)).callers.calls[i]? =
        some { call with progress := .returned (.error .shutdown) } := by
    intro hg
    have hg' : self.lost = true ∧ (call.progress = .sending ∨
        call.progress = .waiting ∧ answerOf i self.trace = none) := ⟨hlost,hg⟩
    simp only [step,fail,hi]
    rw [if_pos hg']
    exact getElem?_set_of_some hi
  obtain ⟨h,ask,progress,ticket⟩ := call
  cases progress with
  | sending => exact ⟨.fail i,_,.inr rfl,hfail (.inl rfl)⟩
  | waiting =>
    cases ha : answerOf i self.trace with
    | none => exact ⟨.fail i,_,.inr rfl,hfail (.inr ⟨rfl,ha⟩)⟩
    | some answer =>
      refine ⟨.act (.wake i),answer.result.map some,.inl rfl,?_⟩
      have ha' : answerOf i self.callers.client.task.trace = some answer := ha
      simp only [step,CallerAction.needsTask,Bool.and_false,Bool.false_eq_true,if_false,
        Callers.step,Callers.wake,hi,ha']
      exact getElem?_set_of_some hi
  | _ => cases hp

/-- A call is told the truth. `configure` returns `Ok` with its command accepted, or
`Shutdown` with the task lost. A request that was not accepted returns `Disconnected`, or
`Shutdown` with the task lost, and nothing is ever done about it. A request that was accepted
returns the one answer the task gives it, now and ever, which is `Shutdown` only behind a
shutdown the task had received; or `Shutdown` with the task lost, and there never is an
answer. Once the task is lost no call has to wait. -/
theorem call_results (env : Env) (config : Option ConnectionConfig)
    (actions : List ExposedAction) :
    let self := (build config).run env actions
    (∀ (i : ℕ) h config' result ticket,
      self.callers.calls[i]? = some ⟨h,.configure config',.returned result,ticket⟩ →
      (result = .ok none ∧ ∃ k, ticket = some k ∧
          self.callers.client.channel.sent[k]? = some (.configure config')) ∨
        (result = .error .shutdown ∧ self.lost = true ∧ ticket = none)) ∧
    (∀ (i : ℕ) h message result,
      self.callers.calls[i]? = some ⟨h,.request message,.returned result,none⟩ →
      (result = .error .disconnected ∨ result = .error .shutdown ∧ self.lost = true) ∧
        ∀ more, ∀ e ∈ (self.run env more).trace, e.isAbout i = false) ∧
    (∀ (i : ℕ) h message result k,
      self.callers.calls[i]? = some ⟨h,.request message,.returned result,some k⟩ →
      (∃ answer, result = answer.result.map some ∧ .answered i answer ∈ self.trace ∧
        (∀ more, (self.run env more).trace.countP (Event.answers i) = 1) ∧
        (result = .error .shutdown → ∃ past response,
          .received (.request message i) :: past <:+ self.trace ∧
            .received (.shutdown response) ∈ past)) ∨
      (result = .error .shutdown ∧ self.lost = true ∧
        ∀ more, (self.run env more).trace.countP (Event.answers i) = 0)) ∧
    (self.lost = true → ∀ (i : ℕ) call, self.callers.calls[i]? = some call →
      call.progress.isPending = true →
      ∃ action result, (action = .act (.wake i) ∨ action = .fail i) ∧
        (self.step env action).callers.calls[i]? =
          some { call with progress := .returned result }) := by
  intro self
  obtain ⟨callers,hl,hf⟩ := exists_follows env config actions
  refine ⟨?_,?_,?_,?_⟩
  · intro i h config' result ticket hi
    rcases hf.returned hi with hi' | ⟨_,rfl,hlost,hunanswered⟩
    · left
      cases hl.standing i _ hi' with
      | @configured _ _ k =>
        have hk := hl.tickets i _ k hi' rfl
        rw [hf.client] at hk
        exact ⟨rfl,k,rfl,hk⟩
    · refine .inr ⟨rfl,hlost,?_⟩
      by_contra hticket
      obtain ⟨⟨message,hask⟩,_⟩ := hunanswered hticket
      cases hask
  · intro i h message result hi
    rcases hf.returned hi with hi' | ⟨hi',rfl,hlost,_⟩
    · refine ⟨?_,fun more e => hf.not_about hl hi' rfl rfl more⟩
      cases hl.standing i _ hi' with
      | expired => exact .inl rfl
    · exact ⟨.inr ⟨rfl,hlost⟩,fun more e => hf.not_about hl hi' rfl rfl more⟩
  · intro i h message result k hi
    rcases hf.returned hi with hi' | ⟨hi',rfl,hlost,hnone⟩
    · left
      cases hl.standing i _ hi' with
      | @answered _ _ answer _ ha =>
        rw [hf.client] at ha
        refine ⟨answer,rfl,ha,fun more => hf.countP_answers hl ha more,?_⟩
        intro hdeclined
        have hans : answer = .error .shutdown := by
          cases answer with
          | ok raw => cases hdeclined
          | error error =>
            cases hdeclined
            rfl
        subst hans
        rw [← hf.client] at ha
        have hbehind := hl.declined_behind hi' rfl ha
        rw [hf.client] at hbehind
        exact hbehind
    · refine .inr ⟨rfl,hlost,fun more => ?_⟩
      have htask := (run_lost env hlost more).2
      rw [trace,htask]
      exact countP_of_answerOf (hnone (by simp)).2
  · exact fun hlost i call hi hp => returns_of_lost hlost hi hp

-- a request that was answered, one the channel had no room for in time, one that was in the
-- queue when the task was lost, and a `configure` behind that
example :
    let live : List CallerAction := [.call 0 (.configure (some Loopback.config)),.accept 0,
      .inner .recv,.inner .finish,.inner .tick,.inner .finish,
      .call 0 (.request (Loopback.echo [1,2])),.accept 1,.call 0 (.request (Loopback.echo [3])),
      .expire 2,.inner .recv,.inner .finish,.wake 1,.call 0 (.request (Loopback.echo [4])),
      .accept 3]
    let self := (build none).run Loopback.env (live.map .act ++ [.lose,.act (.inner .recv),
      .fail 3,.act (.call 0 (.configure none)),.act (.accept 4),.fail 4])
    self.callers.calls.map (fun call => (call.progress,call.ticket)) =
      [(.returned (.ok none),some 0),(.returned (.ok (some ⟨0x81,[2,1]⟩)),some 1),
        (.returned (.error .disconnected),none),(.returned (.error .shutdown),some 2),
        (.returned (.error .shutdown),none)] := by
  decide +kernel

end Results

end Exposed

end BloopClient
