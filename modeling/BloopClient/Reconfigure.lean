import BloopClient.Handles
import BloopClient.Loopback

/-!
# No request crosses a reconfiguration

Connections are opened on ticks, configurations arrive as commands. A
configuration is taken only once every connection is closed, and an attempt
begins only then, with the configuration of the moment; so a connection that is
open was opened with the present configuration, and a request that is written to
it was queued behind no other.
-/

namespace BloopClient
open Tracelib ClientTask

/-- The configurations a task has processed, oldest first. -/
def processed : Trace → List (Option ConnectionConfig)
  | [] => []
  | .configured config :: past => processed past ++ [config]
  | _ :: past => processed past

/-- The configuration in force: the last one processed, or the initial one. -/
def currentConfig (initial : Option ConnectionConfig) (t : Trace) : Option ConnectionConfig :=
  (processed t).getLastD initial

def Command.configuration : Command → Option (Option ConnectionConfig)
  | .configure config => some config
  | _ => none

/-- The configurations among commands in queue order. -/
def configurations (commands : List Command) : List (Option ConnectionConfig) :=
  commands.filterMap Command.configuration

/-- The configuration of the last `Configure` among commands in queue order, or
the initial one. -/
def lastConfigure (initial : Option ConnectionConfig) (commands : List Command) :
    Option ConnectionConfig :=
  (configurations commands).getLastD initial

/-- The event belongs to the processing of a `Configure`. -/
def Event.reconfigures : Event → Bool
  | .received (.configure _) => true
  | .configured _ => true
  | _ => false

/-- The stream of a connection has been opened and not been closed. -/
def IsOpen (c : ℕ) (t : Trace) : Prop := (∃ localIp, .opened c localIp ∈ t) ∧ .closed c ∉ t

/-- Connection `c` was opened by an attempt with this configuration, which was
in force when the attempt began; every `Configure` received had been processed
by then, and none has been received since. -/
def OpenedWith (initial : Option ConnectionConfig) (c : ℕ) (config : ConnectionConfig)
    (t : Trace) : Prop :=
  ∃ later earlier, t = later ++ .connecting c config :: earlier ∧
    (∀ e ∈ later, e.reconfigures = false) ∧ currentConfig initial earlier = some config ∧
    processed earlier = configurations (received earlier)

/-- What a reconfiguration, an attempt and the frame of a request may find. -/
def Fresh (env : Env) (initial : Option ConnectionConfig) : Event → Trace → Prop
  | .configured _, past => Quiet env past none
  | .connecting c config, past =>
    c = dials past ∧ Quiet env past none ∧ currentConfig initial past = some config
  | .wrote c (.request response) frame _, past => ∃ config before,
      past = .received (.request frame response) :: before ∧ OpenedWith initial c config before ∧
        lastConfigure initial (received past) = some config
  | _, _ => True

variable {env : Env} {initial : Option ConnectionConfig} {c : ℕ} {t t' : Trace}
  {config : ConnectionConfig} {self : ClientTask}

theorem Event.Inert.reconfigures {e : Event} (h : e.Inert) : e.reconfigures = false := by
  cases e <;> first
    | rfl
    | exact absurd h id

theorem Event.OfAttempt.reconfigures {e : Event} (h : e.OfAttempt) : e.reconfigures = false := by
  cases e <;> first
    | rfl
    | exact absurd h id

theorem processed_of_extends (h : Extends (fun e => e.reconfigures = false) t t') :
    processed t' = processed t := by
  refine h.congr ?_
  intro e past he
  cases e <;> first
    | rfl
    | cases he

theorem Idles.processed (h : Idles t t') : processed t' = processed t :=
  processed_of_extends (h.mono fun _ he => he.reconfigures)

@[simp] theorem configurations_append (commands commands' : List Command) :
    configurations (commands ++ commands') = configurations commands ++ configurations commands' :=
  List.filterMap_append

theorem OpenedWith.extend (h : OpenedWith initial c config t)
    (hx : Extends (fun e => e.reconfigures = false) t t') : OpenedWith initial c config t' := by
  obtain ⟨later,earlier,rfl,hl,hc,hr⟩ := h
  obtain ⟨new,rfl,hn⟩ := hx
  refine ⟨new ++ later,earlier,by simp,?_,hc,hr⟩
  intro e he
  rcases List.mem_append.mp he with he | he
  · exact hn e he
  · exact hl e he

/-- What a task holds on to between rounds. -/
structure Fresher (env : Env) (initial : Option ConnectionConfig) (task : ClientTask) : Prop where
  always : Always (Fresh env initial) task.trace
  config : task.config = currentConfig initial task.trace
  settled : task.shutdown = false → processed task.trace = configurations (received task.trace)
  held : ∀ connection, task.connection = some connection →
    ∃ config, OpenedWith initial connection.id config task.trace
  down : task.shutdown = true → task.connection = none

theorem OpenedWith.currentConfig (h : OpenedWith initial c config t) :
    currentConfig initial t = some config := by
  obtain ⟨later,earlier,rfl,hl,hc,_⟩ := h
  have hx : processed (later ++ .connecting c config :: earlier) =
      processed (.connecting c config :: earlier) := processed_of_extends ⟨later,rfl,hl⟩
  rw [BloopClient.currentConfig,hx]
  exact hc

theorem Event.Plain.fresh {e : Event} (h : e.Plain) (past : Trace) : Fresh env initial e past := by
  cases e with
  | configured config => exact absurd h id
  | connecting c config => exact absurd h id
  | wrote c role frame w =>
    cases role with
    | request response => cases h
    | _ => trivial
  | _ => trivial

namespace Fresher

theorem build (initial : Option ConnectionConfig) :
    Fresher env initial (ClientTask.build initial) :=
  ⟨by simp [ClientTask.build],rfl,fun _ => rfl,by simp [ClientTask.build],fun _ => rfl⟩

/-- Every event of a round finds what it may find. -/
theorem round_always {select : Select} {task : ClientTask} (h : Fresher env initial self)
    (hl : Linked env self) (hr : Round env self select task) :
    Always (Fresh env initial) task.trace := by
  refine hr.always h.always (fun _ past he => he.fresh past) (fun _ _ _ _ hq => hq) ?_
    (fun _ _ _ _ _ _ _ => trivial) ?_ (fun _ _ _ => trivial)
  · intro connection message response w hs hc
    obtain ⟨config,ho⟩ := h.held connection hc
    refine ⟨config,self.trace,rfl,ho,?_⟩
    rw [← ho.currentConfig,BloopClient.currentConfig,h.settled hs]
    simp [lastConfigure,received,configurations,Command.configuration]
  · intro config hs hn hc _
    exact ⟨rfl,hl.quiet_none hn,by rw [← h.config,hc]⟩

/-- A round that handles no `Configure` has to account for the connection only. -/
theorem of_frame {select : Select} {task : ClientTask} (h : Fresher env initial self)
    (hl : Linked env self) (hr : Round env self select task)
    (hsel : ∀ config, select ≠ .recv (some (.configure config)))
    (hconfig : task.config = self.config)
    (hprocessed : processed task.trace = processed self.trace)
    (hshutdown : task.shutdown = false → self.shutdown = false)
    (hheld : ∀ connection, task.connection = some connection →
      ∃ config, OpenedWith initial connection.id config task.trace)
    (hdown : task.shutdown = true → task.connection = none) : Fresher env initial task := by
  have hcurrent : task.config = currentConfig initial task.trace := by
    rw [hconfig,h.config,currentConfig,currentConfig,hprocessed]
  refine ⟨h.round_always hl hr,hcurrent,?_,hheld,hdown⟩
  intro hs
  have hnone : configurations (command select) = [] := by
    rcases select with (_ | command) | _
    · rfl
    · cases command with
      | configure config => exact absurd rfl (hsel config)
      | request message response => rfl
      | shutdown response => rfl
    · rfl
  rw [hprocessed,h.settled (hshutdown hs),hr.received,configurations_append,hnone,List.append_nil]

/-- A connection that is kept through a round stays the one it was. -/
theorem held_of_extends {connection : Connection} {t : Trace} (h : Fresher env initial self)
    (hc : self.connection = some connection)
    (hx : Extends (fun e => e.reconfigures = false) self.trace t) :
    ∃ config, OpenedWith initial connection.id config t := by
  obtain ⟨config,ho⟩ := h.held connection hc
  exact ⟨config,ho.extend hx⟩

theorem attempted {task : ClientTask} (h : Fresher env initial self) (hl : Linked env self)
    (hs : self.shutdown = false) (hn : self.connection = none) (ha : Attempted env self task) :
    Fresher env initial task := by
  obtain ⟨hconfig,hshutdown,hconnection⟩ := ha.frame
  refine h.of_frame hl (.attempted hs hn ha) (by simp) hconfig
    (processed_of_extends (ha.extends.mono fun _ he => he.reconfigures)) (fun _ => hs) ?_
    (by simp [hshutdown,hs])
  intro connection hc
  rcases hconnection with hsame | ⟨stored,hstored,hid⟩
  · rw [hsame,hn] at hc
    cases hc
  · obtain ⟨rfl,_⟩ | ⟨config,hself,new,ht,hnew⟩ := ha.started
    · rw [hn] at hc
      cases hc
    · rw [hstored,Option.some.injEq] at hc
      subst hc
      have hcurrent : currentConfig initial self.trace = some config := by
        rw [← h.config,hself]
      exact ⟨config,new,self.trace,by rw [ht,hid],fun e he => (hnew e he).reconfigures,hcurrent,
        h.settled hs⟩

theorem round {select : Select} {task : ClientTask} (h : Fresher env initial self)
    (hl : Linked env self) (hr : Round env self select task) : Fresher env initial task := by
  cases hr with
  | ignored hs =>
    have hn : self.connection = none := h.down hs
    refine ⟨h.round_always hl (.ignored hs),h.config,?_,?_,h.down⟩
    · intro hs'
      exact absurd (hs.symm.trans hs') (by simp)
    · intro connection hc
      exact absurd (hn.symm.trans hc) (by simp)
  | @configured config t hs hi hq =>
    refine ⟨h.round_always hl (.configured hs hi hq),?_,?_,by simp,fun _ => rfl⟩
    · simp [currentConfig,processed]
    · intro _
      show processed t ++ [config] = configurations (received t)
      rw [hi.received,hi.processed,received,configurations_append,← h.settled hs]
      rfl
  | refused hs =>
    refine h.of_frame hl (.refused hs) (by simp) rfl rfl (fun h => h) ?_ h.down
    intro connection hc
    exact h.held_of_extends hc ⟨[_,_],rfl,by simp [Event.reconfigures]⟩
  | offline hs hn =>
    refine h.of_frame hl (.offline hs hn) (by simp) rfl rfl (fun h => h) ?_ h.down
    intro connection hc
    exact h.held_of_extends hc ⟨[_,_],rfl,by simp [Event.reconfigures]⟩
  | answered hs hc hf =>
    refine h.of_frame hl (.answered hs hc hf) (by simp) rfl rfl (fun h => h) ?_ h.down
    intro connection hc
    exact h.held_of_extends hc ⟨[_,_,_,_],rfl,by simp [Event.reconfigures]⟩
  | @answeredFatal message response connection raw hs hc hf =>
    have hp := (dropConnection_idles { self with
      trace := repliedTrace connection message raw response self.trace }).processed
    exact h.of_frame hl (.answeredFatal hs hc hf) (by simp) (dropConnection_config _)
      hp (fun _ => hs) (fun _ hc => absurd hc (by simp [answer,emit]))
      (fun _ => dropConnection_connection _)
  | @lost message response connection r t hs hc hr hx =>
    refine h.of_frame hl (.lost hs hc hr hx) (by simp) (dropConnection_config _) ?_
      (fun _ => hs) (fun _ hc => absurd hc (by simp [answer,emit]))
      (fun _ => dropConnection_connection _)
    refine (dropConnection_idles { self with trace := t }).processed.trans ?_
    cases hx <;> rfl
  | shutdown hi hq =>
    have hp := hi.processed
    exact h.of_frame hl (.shutdown hi hq) (by simp) rfl hp (by simp) (by simp) (fun _ => rfl)
  | woundDown hi hq =>
    have hp := hi.processed
    exact h.of_frame hl (.woundDown hi hq) (by simp) rfl hp (fun h => h) (by simp) (fun _ => rfl)
  | idle _ => exact h
  | pinged hs hc hg =>
    refine h.of_frame hl (.pinged hs hc hg) (by simp) rfl hg.idles.processed (fun _ => hs) ?_ h.down
    intro connection hc
    exact h.held_of_extends hc (hg.idles.mono fun _ he => he.reconfigures)
  | @pingLost connection t hs hc hg =>
    refine h.of_frame hl (.pingLost hs hc hg) (by simp) (dropConnection_config _)
      ((dropConnection_idles { self with trace := t }).processed.trans hg.idles.processed)
      (fun _ => hs) (by simp) (by simp)
  | attempted hs hn ha => exact h.attempted hl hs hn ha

end Fresher

/-- The stream of a connection at this stage is open. -/
def Stage.isOpen : Stage → Bool
  | .unborn => false
  | .dialing _ => false
  | .closed _ => false
  | _ => true

theorem Life.unclosed {s : Stage} (h : Life env c t s) (hs : ∀ b, s ≠ .closed b) :
    .closed c ∉ t := by
  induction h with
  | nil => simp
  | @step t s e s' h he ih =>
    -- nothing leads back from a closed connection
    have hpast : ∀ b, s ≠ .closed b := by
      rintro b rfl
      cases he <;> exact hs _ rfl
    have hne : e ≠ .closed c := by
      rintro rfl
      cases he <;> exact hs _ rfl
    simp [ih hpast,hne.symm]
  | @skip t s e h he ih =>
    have hne : e ≠ .closed c := by
      rintro rfl
      exact he rfl
    simp [ih hs,hne.symm]

theorem Life.isOpen_iff {s : Stage} (h : Life env c t s) : IsOpen c t ↔ s.isOpen = true := by
  have hkeep : ∀ {e : Event} {t : Trace}, (∀ localIp, e ≠ .opened c localIp) → e ≠ .closed c →
      (IsOpen c (e :: t) ↔ IsOpen c t) := by
    intro e t ho hc
    simp [IsOpen,Ne.symm hc,fun localIp => (ho localIp).symm]
  induction h with
  | nil => simp [IsOpen,Stage.isOpen]
  | @step t s e s' h he ih =>
    cases he with
    | opened => simpa [IsOpen,Stage.isOpen] using h.unclosed (by simp)
    | closeOpened => simp [IsOpen,Stage.isOpen]
    | closeGreeted => simp [IsOpen,Stage.isOpen]
    | closeRefused => simp [IsOpen,Stage.isOpen]
    | closeReady => simp [IsOpen,Stage.isOpen]
    | closeFailing => simp [IsOpen,Stage.isOpen]
    | closeQuitted => simp [IsOpen,Stage.isOpen]
    | _ => exact (hkeep (by simp) (by simp)).trans ih
  | @skip t s e h he ih =>
    refine (hkeep ?_ ?_).trans ih
    · rintro localIp rfl
      exact he rfl
    · rintro rfl
      exact he rfl

/-- Connection `c` is of the latest attempt, which used the configuration in
force. -/
def Latest (initial : Option ConnectionConfig) (c : ℕ) (t : Trace) : Prop :=
  c + 1 = dials t ∧ ∃ config, .connecting c config ∈ t ∧ currentConfig initial t = some config

theorem Latest.cons {e : Event} (h : Latest initial c t) (hd : e.isConnecting = false)
    (hn : ∀ config, e ≠ .configured config) : Latest initial c (e :: t) := by
  obtain ⟨hc,config,hm,hcurrent⟩ := h
  refine ⟨by rw [dials_cons_of_ne hd,hc],config,List.mem_cons_of_mem _ hm,?_⟩
  cases e with
  | configured config => exact absurd rfl (hn config)
  | _ => exact hcurrent

/-- A live connection rules out what needs every connection closed. -/
theorem Life.not_quiet {s : Stage} (h : Life env c t s) (hc : ∀ b, s ≠ .closed b)
    (hl : Latest initial c t) : ¬ Quiet env t none := by
  intro hq
  have hd : c < dials t := by
    have := hl.1
    omega
  obtain ⟨b,hb⟩ := hq.closed c hd (by simp)
  exact hc b (h.unique hb)

theorem Step.latest {s s' : Stage} {e : Event} (h : Step env c s e s')
    (hf : Fresh env initial e t) (hc : ∀ b, s' ≠ .closed b)
    (hl : s ≠ .unborn → (∀ b, s ≠ .closed b) → Latest initial c t) :
    Latest initial c (e :: t) := by
  cases h with
  | @dial config =>
    obtain ⟨hd,_,hcurrent⟩ := hf
    refine ⟨?_,config,List.mem_cons_self,hcurrent⟩
    rw [dials_cons,hd]
    rfl
  | undialed _ => exact absurd rfl (hc _)
  | closeOpened => exact absurd rfl (hc _)
  | closeGreeted => exact absurd rfl (hc _)
  | closeRefused => exact absurd rfl (hc _)
  | closeReady => exact absurd rfl (hc _)
  | closeFailing => exact absurd rfl (hc _)
  | closeQuitted => exact absurd rfl (hc _)
  | rejected => exact absurd rfl (hc _)
  | failed _ => exact absurd rfl (hc _)
  | _ => exact (hl (by simp) (by simp)).cons rfl (by simp)

/-- A connection whose attempt has begun and that is not closed is the latest
one, and was opened with the configuration in force. -/
theorem Life.latest {s : Stage} (h : Life env c t s) (ha : Always (Fresh env initial) t)
    (hu : s ≠ .unborn) (hc : ∀ b, s ≠ .closed b) : Latest initial c t := by
  induction h with
  | nil => exact absurd rfl hu
  | step h he ih => exact he.latest ha.1 hc (ih ha.2)
  | @skip t s e h he ih =>
    have hl : Latest initial c t := ih ha.2 hu hc
    have hq : ¬ Quiet env t none := h.not_quiet hc hl
    refine hl.cons ?_ ?_
    · cases e with
      | connecting c' config => exact absurd ha.1.2.1 hq
      | _ => rfl
    · rintro config rfl
      exact hq ha.1

/-- Only the connection of the latest attempt can be open. -/
theorem IsOpen.latest (h : IsOpen c t) (hl : ∃ s, Life env c t s)
    (ha : Always (Fresh env initial) t) : Latest initial c t := by
  obtain ⟨s,hs⟩ := hl
  have ho : s.isOpen = true := hs.isOpen_iff.mp h
  refine hs.latest ha ?_ ?_
  · rintro rfl
    cases ho
  · rintro b rfl
    cases ho

/-- The commands received at an earlier moment come first. -/
theorem received_of_suffix (h : t <:+ t') : received t <+: received t' := by
  obtain ⟨new,rfl⟩ := h
  induction new with
  | nil => exact List.prefix_rfl
  | cons e new ih =>
    refine ih.trans ?_
    cases e with
    | received command => exact List.prefix_append _ _
    | _ => exact List.prefix_rfl

/-- However the handles, the channel and the task interleave: a request is
written only to a connection whose attempt used the configuration of the last
`Configure` queued before it and began once that was processed; one stream at
most is open at any moment, and it was opened with the configuration in force;
and so was the connection the task holds. -/
theorem request_stays_in_configuration (env : Env) (initial : Option ConnectionConfig)
    (actions : List Action) :
    let client := (Client.build initial).run env actions
    (∀ c response frame w past,
      (.wrote c (.request response) frame w :: past) <:+ client.task.trace →
      ∃ config before, past = .received (.request frame response) :: before ∧
        received past <+: client.channel.sent ∧
        lastConfigure initial (received past) = some config ∧
        OpenedWith initial c config before) ∧
    (∀ past c, past <:+ client.task.trace → IsOpen c past →
      (∀ c', IsOpen c' past → c' = c) ∧
      ∃ config, .connecting c config ∈ past ∧ currentConfig initial past = some config) ∧
    ∀ connection, client.task.connection = some connection →
      IsOpen connection.id client.task.trace ∧
      ∃ config, client.task.config = some config ∧
        OpenedWith initial connection.id config client.task.trace := by
  intro client
  have hserving : Serving env initial client :=
    Client.run_induction (.build initial) (fun _ _ _ h hm => h.moved hm) actions
  have hlinked : Linked env client.task := hserving.linked
  have hfresher : Fresher env initial client.task := by
    obtain ⟨rounds,htask,_⟩ := hserving.served
    rw [htask]
    exact run_induction (.build initial) (.build initial)
      (fun _ _ _ hl h hr => h.round hl hr) rounds
  refine ⟨?_,?_,?_⟩
  · intro c response frame w past hp
    obtain ⟨config,before,hpast,ho,hlast⟩ := (hfresher.always.of_suffix hp).1
    refine ⟨config,before,hpast,?_,hlast,ho⟩
    have htaken : received client.task.trace <+: client.channel.taken :=
      ⟨_,hserving.order⟩
    have hsent : client.channel.taken <+: client.channel.sent := List.prefix_append _ _
    exact (received_of_suffix ((List.suffix_cons _ _).trans hp)).trans (htaken.trans hsent)
  · intro past c hp ho
    have hlatest : ∀ c, IsOpen c past → Latest initial c past := by
      intro c ho
      obtain ⟨s,hs⟩ := hlinked.life c
      exact ho.latest (hs.of_suffix hp) (hfresher.always.of_suffix hp)
    refine ⟨?_,(hlatest c ho).2⟩
    intro c' ho'
    have h := (hlatest c ho).1
    have h' := (hlatest c' ho').1
    omega
  · intro connection hc
    obtain ⟨config,ho⟩ := hfresher.held connection hc
    obtain ⟨_,hello,_,_,_,hl⟩ := hlinked.ready connection hc
    refine ⟨hl.isOpen_iff.mpr rfl,config,?_,ho⟩
    rw [hfresher.config,ho.currentConfig]

-- a request queued with its configuration is still refused: the attempt comes
-- with the next tick, and a later request is written to its connection
example :
    let request := .send (.request (Loopback.echo [1]) 0)
    let client := (Client.build none).run Loopback.env [.send (.configure (some Loopback.config)),
      request,request,.recv,.finish,.recv,.finish,.tick,.finish,.recv,.finish]
    client.task.trace.count (.answered 0 (.error .disconnected)) = 1 ∧
      client.task.trace.count
        (.wrote 0 (.request 0) (Loopback.echo [1]) .complete) = 1 := by
  decide +kernel

end BloopClient
