import BloopClient.Protocol

/-!
# Audio playback

A playback is a task on the blocking pool and a handle that can be awaited, dropped or
detached. The two share a flag: the task looks at it before it opens the device, before it
hands the audio to the player, and every time it has slept. What the task, the handle and
the device do is interleaved freely, one access to the flag or the player at a time. What
the device does with a player is not the framework's: it is a parameter, and so is when a
player says that it is empty.
-/

namespace BloopClient

structure DecoderError where
  text : String
  deriving DecidableEq, Repr

/-- Errors that can occur during playback. -/
inductive PlaybackError
  | io (error : IoError)
  | output (text : String)
  | decode (error : DecoderError)
  | task
  deriving DecidableEq, Repr

/-- The audio library under a playback: whether there is an output device, whether the data
can be decoded, and its players. Between two things the task does to a player, the device
may change it in any of its ways `D`. -/
structure Rig (V P D : Type) where
  sink : Except String Unit
  decoder : Except DecoderError Unit
  connectNew : P
  setVolume : V → P → P
  append : P → P
  empty : P → Bool
  advance : D → P → P

/-- The player after what the device did to it. -/
def Rig.advanced {V P D : Type} (rig : Rig V P D) (moves : List D) (player : P) : P :=
  moves.foldl (fun player move => rig.advance move player) player

/-- The device can empty every player. -/
def Rig.Drains {V P D : Type} (rig : Rig V P D) : Prop :=
  ∀ player, ∃ moves, rig.empty (rig.advanced moves player) = true

/-- Where the task is, by what it does next. -/
inductive PlaybackStage
  | queued
  | opening
  | reading
  | decoding
  | decoded
  | appending
  | looping
  | sleeping
  | returned (result : Except PlaybackError Unit)
  | panicked

/-- The handle: held, awaited to its end, dropped, or detached. -/
inductive PlaybackHandle
  | held
  | awaited (result : Except PlaybackError Unit)
  | dropped
  | detached

/-- A playback, with the player as the task left it, and whether the device was ever asked
for and the player given the audio. -/
structure Playback (V P : Type) where
  volume : V
  source : Except PlaybackError Unit
  stage : PlaybackStage
  player : Option P
  cancelled : Bool
  handle : PlaybackHandle
  released : Option P
  opened : Bool
  appended : Bool

/-- Something the task, the handle or the device does. A task can panic, or never be run by
a pool that shuts down. -/
inductive PlaybackAction (D : Type)
  | work
  | panic
  | poll
  | drop
  | detach
  | play (move : D)
  deriving DecidableEq, Repr

def PlaybackAction.isWork {D : Type} : PlaybackAction D → Bool
  | .work => true
  | _ => false

def PlaybackStage.isOver : PlaybackStage → Bool
  | .returned _ => true
  | .panicked => true
  | _ => false

/-- The audio has not been handed to the player, and the flag is looked at before it is. -/
def PlaybackStage.isEarly : PlaybackStage → Bool
  | .queued | .opening | .reading | .decoding | .decoded => true
  | _ => false

/-- What the join handle of the task resolves to. -/
def PlaybackStage.joined : PlaybackStage → Option (Except PlaybackError Unit)
  | .returned result => some result
  | .panicked => some (.error .task)
  | _ => none

theorem PlaybackStage.joined_eq_none {stage : PlaybackStage} (h : stage.isOver = false) :
    stage.joined = none := by
  cases stage <;> first | rfl | cases h

theorem PlaybackStage.isOver_of_joined {stage : PlaybackStage}
    {result : Except PlaybackError Unit} (h : stage.joined = some result) :
    stage.isOver = true := by
  cases stage <;> first | rfl | cases h

namespace Playback

variable {V P D : Type}

def playWith (volume : V) (source : Except PlaybackError Unit) : Playback V P :=
  ⟨volume,source,.queued,none,false,.held,none,false,false⟩

/-- Plays an audio file at the given volume. -/
def playFile (file : Except IoError Unit) (volume : V) : Playback V P :=
  playWith volume (file.mapError .io)

/-- Plays audio from a reader at the given volume. -/
def playReader (volume : V) : Playback V P := playWith volume (.ok ())

/-- The task comes to its end, and drops its player. -/
def finish (self : Playback V P) (stage : PlaybackStage) : Playback V P :=
  { self with stage, player := none, released := self.player }

/-- The next thing the task does. -/
def work (rig : Rig V P D) (self : Playback V P) : Playback V P :=
  match self.stage with
  | .queued =>
    if self.cancelled then self.finish (.returned (.ok ())) else { self with stage := .opening }
  | .opening =>
    let self := { self with opened := true }
    match rig.sink with
    | .error text => self.finish (.returned (.error (.output text)))
    | .ok () =>
      { self with stage := .reading, player := some (rig.setVolume self.volume rig.connectNew) }
  | .reading =>
    match self.source with
    | .error error => self.finish (.returned (.error error))
    | .ok () => { self with stage := .decoding }
  | .decoding =>
    match rig.decoder with
    | .error error => self.finish (.returned (.error (.decode error)))
    | .ok () => { self with stage := .decoded }
  | .decoded =>
    if self.cancelled then self.finish (.returned (.ok ())) else { self with stage := .appending }
  | .appending =>
    { self with stage := .looping, player := self.player.map rig.append, appended := true }
  | .looping =>
    if self.player.all rig.empty then self.finish (.returned (.ok ()))
    else { self with stage := .sleeping }
  | .sleeping =>
    if self.cancelled then self.finish (.returned (.ok ())) else { self with stage := .looping }
  | .returned _ => self
  | .panicked => self

def step (rig : Rig V P D) (self : Playback V P) : PlaybackAction D → Playback V P
  | .work => self.work rig
  | .panic => if self.stage.isOver then self else self.finish .panicked
  | .poll =>
    match self.handle,self.stage.joined with
    | .held,some result => { self with handle := .awaited result }
    | _,_ => self
  | .drop =>
    match self.handle with
    | .held => { self with handle := .dropped, cancelled := true }
    | .awaited _ => { self with cancelled := true }
    | _ => self
  | .detach =>
    match self.handle with
    | .held => { self with handle := .detached }
    | _ => self
  | .play move => { self with player := self.player.map (rig.advance move) }

def run (rig : Rig V P D) (self : Playback V P) (actions : List (PlaybackAction D)) :
    Playback V P :=
  actions.foldl (step rig) self

/-- The first thing that goes wrong, in the order the task does them. -/
def failure (rig : Rig V P D) (source : Except PlaybackError Unit) : Option PlaybackError :=
  match rig.sink,source,rig.decoder with
  | .error text,_,_ => some (.output text)
  | .ok (),.error error,_ => some error
  | .ok (),.ok (),.error error => some (.decode error)
  | .ok (),.ok (),.ok () => none

-- ════════════════════════════════════════════════════════════════════════
-- The course of a playback
-- ════════════════════════════════════════════════════════════════════════

/-- A player at the volume of the playback, left to the device. -/
def Connected (rig : Rig V P D) (volume : V) (player : P) : Prop :=
  ∃ moves, player = rig.advanced moves (rig.setVolume volume rig.connectNew)

/-- Such a player that was given the audio, and left to the device again. -/
def Plays (rig : Rig V P D) (volume : V) (player : P) : Prop :=
  ∃ connected moves, Connected rig volume connected ∧
    player = rig.advanced moves (rig.append connected)

/-- How the task, its player and what was done to it fit together. Only a dropped playback
returns `Ok` before its player is empty. -/
inductive Course (rig : Rig V P D) (source : Except PlaybackError Unit) (volume : V)
    (dropped : Prop) : PlaybackStage → Option P → Option P → Bool → Bool → Prop
  | queued : Course rig source volume dropped .queued none none false false
  | opening : Course rig source volume dropped .opening none none false false
  | reading {player} (hs : rig.sink = .ok ()) (hp : Connected rig volume player) :
      Course rig source volume dropped .reading (some player) none true false
  | decoding {player} (hs : rig.sink = .ok ()) (ho : source = .ok ())
      (hp : Connected rig volume player) :
      Course rig source volume dropped .decoding (some player) none true false
  | decoded {player} (hf : failure rig source = none) (hp : Connected rig volume player) :
      Course rig source volume dropped .decoded (some player) none true false
  | appending {player} (hf : failure rig source = none) (hp : Connected rig volume player) :
      Course rig source volume dropped .appending (some player) none true false
  | looping {player} (hf : failure rig source = none) (hp : Plays rig volume player) :
      Course rig source volume dropped .looping (some player) none true true
  | sleeping {player} (hf : failure rig source = none) (hp : Plays rig volume player) :
      Course rig source volume dropped .sleeping (some player) none true true
  | finished {player} (hf : failure rig source = none) (hp : Plays rig volume player)
      (he : rig.empty player = true) :
      Course rig source volume dropped (.returned (.ok ())) none (some player) true true
  | stopped {released opened appended} (hd : dropped) :
      Course rig source volume dropped (.returned (.ok ())) none released opened appended
  | failed {error released} (hf : failure rig source = some error) :
      Course rig source volume dropped (.returned (.error error)) none released true false
  | panicked {released opened appended} :
      Course rig source volume dropped .panicked none released opened appended

theorem Course.mono {rig : Rig V P D} {source : Except PlaybackError Unit} {volume : V}
    {p q : Prop} {stage : PlaybackStage} {player released : Option P} {opened appended : Bool}
    (h : Course rig source volume p stage player released opened appended) (hpq : p → q) :
    Course rig source volume q stage player released opened appended := by
  cases h with
  | stopped hd => exact .stopped (hpq hd)
  | _ => constructor <;> assumption

/-- What holds of a playback at every moment. -/
structure Lawful (rig : Rig V P D) (source : Except PlaybackError Unit) (volume : V)
    (playback : Playback V P) : Prop where
  source_eq : playback.source = source
  volume_eq : playback.volume = volume
  course : Course rig source volume (playback.handle = .dropped) playback.stage playback.player
    playback.released playback.opened playback.appended
  /-- The flag is only up if the handle was dropped, or has nothing left to stop. -/
  flag : playback.cancelled = true → playback.handle = .dropped ∨ playback.stage.isOver = true
  dropped : playback.handle = .dropped → playback.cancelled = true
  awaited : ∀ result, playback.handle = .awaited result → playback.stage.joined = some result

variable {rig : Rig V P D} {source : Except PlaybackError Unit} {volume : V}
  {self : Playback V P} {player : P}

theorem Connected.advance (h : Connected rig volume player) (move : D) :
    Connected rig volume (rig.advance move player) := by
  obtain ⟨moves,rfl⟩ := h
  exact ⟨moves ++ [move],by simp [Rig.advanced]⟩

theorem Plays.advance (h : Plays rig volume player) (move : D) :
    Plays rig volume (rig.advance move player) := by
  obtain ⟨connected,moves,hc,rfl⟩ := h
  exact ⟨connected,moves ++ [move],hc,by simp [Rig.advanced]⟩

theorem lawful_playWith (rig : Rig V P D) (volume : V) (source : Except PlaybackError Unit) :
    Lawful rig source volume (playWith volume source) where
  source_eq := rfl
  volume_eq := rfl
  course := .queued
  flag h := by cases h
  dropped h := by cases h
  awaited _ h := by cases h

namespace Lawful

/-- The task moves on and leaves the handle and the flag alone. -/
theorem of_task {stage : PlaybackStage} {player released : Option P} {opened appended : Bool}
    (h : Lawful rig source volume self) (hopen : self.stage.isOver = false)
    (hc : Course rig source volume (self.handle = .dropped) stage player released opened
      appended) :
    Lawful rig source volume
      { self with stage, player, released, opened, appended } where
  source_eq := h.source_eq
  volume_eq := h.volume_eq
  course := hc
  flag hf := .inl ((h.flag hf).resolve_right (by simp [hopen]))
  dropped := h.dropped
  awaited result hr := by
    have hj := h.awaited result hr
    rw [PlaybackStage.joined_eq_none hopen] at hj
    cases hj

/-- A flag that is up tells a task that is not over that its handle was dropped. -/
theorem dropped_of_cancelled (h : Lawful rig source volume self)
    (hopen : self.stage.isOver = false) (hc : self.cancelled = true) : self.handle = .dropped :=
  (h.flag hc).resolve_right (by simp [hopen])

theorem work (h : Lawful rig source volume self) : Lawful rig source volume (self.work rig) := by
  have hcourse := h.course
  have hstopped : ∀ {released opened appended}, self.stage.isOver = false →
      self.cancelled = true → Course rig source volume (self.handle = .dropped)
        (.returned (.ok ())) none released opened appended :=
    fun hopen hc => .stopped (h.dropped_of_cancelled hopen hc)
  have hs := h.source_eq
  have hv := h.volume_eq
  obtain ⟨vol,src,stage,player,cancelled,handle,released,opened,appended⟩ := self
  dsimp only at hs hv
  subst hs hv
  dsimp only at hcourse hstopped
  cases hcourse with
  | queued =>
    simp only [Playback.work]
    split
    case isTrue hc => exact h.of_task rfl (hstopped rfl hc)
    case isFalse => exact h.of_task rfl .opening
  | opening =>
    simp only [Playback.work]
    cases hsink : rig.sink with
    | error text => exact h.of_task rfl (.failed (by simp [failure,hsink]))
    | ok _ => exact h.of_task rfl (.reading hsink ⟨[],rfl⟩)
  | reading hsink hp =>
    simp only [Playback.work]
    cases hsource : src with
    | error error =>
      subst hsource
      exact h.of_task rfl (.failed (by simp [failure,hsink]))
    | ok _ =>
      subst hsource
      exact h.of_task rfl (.decoding hsink rfl hp)
  | decoding hsink hsource hp =>
    simp only [Playback.work]
    cases hdecoder : rig.decoder with
    | error error => exact h.of_task rfl (.failed (by simp [failure,hsink,hsource,hdecoder]))
    | ok _ => exact h.of_task rfl (.decoded (by simp [failure,hsink,hsource,hdecoder]) hp)
  | decoded hf hp =>
    simp only [Playback.work]
    split
    case isTrue hc => exact h.of_task rfl (hstopped rfl hc)
    case isFalse => exact h.of_task rfl (.appending hf hp)
  | appending hf hp => exact h.of_task rfl (.looping hf ⟨_,[],hp,rfl⟩)
  | looping hf hp =>
    simp only [Playback.work]
    split
    case isTrue he => exact h.of_task rfl (.finished hf hp (by simpa using he))
    case isFalse => exact h.of_task rfl (.sleeping hf hp)
  | sleeping hf hp =>
    simp only [Playback.work]
    split
    case isTrue hc => exact h.of_task rfl (hstopped rfl hc)
    case isFalse => exact h.of_task rfl (.looping hf hp)
  | _ => exact h

theorem play (h : Lawful rig source volume self) (move : D) :
    Lawful rig source volume (self.step rig (.play move)) := by
  have hcourse := h.course
  obtain ⟨vol,src,stage,player,cancelled,handle,released,opened,appended⟩ := self
  dsimp only at hcourse
  cases hcourse with
  | reading hs hp => exact h.of_task rfl (.reading hs (hp.advance move))
  | decoding hs ho hp => exact h.of_task rfl (.decoding hs ho (hp.advance move))
  | decoded hf hp => exact h.of_task rfl (.decoded hf (hp.advance move))
  | appending hf hp => exact h.of_task rfl (.appending hf (hp.advance move))
  | looping hf hp => exact h.of_task rfl (.looping hf (hp.advance move))
  | sleeping hf hp => exact h.of_task rfl (.sleeping hf (hp.advance move))
  | _ => exact h

theorem panic (h : Lawful rig source volume self) :
    Lawful rig source volume (self.step rig .panic) := by
  simp only [step]
  split
  case isTrue => exact h
  case isFalse hopen => exact h.of_task (by simpa using hopen) .panicked

/-- A handle that is held becomes something else. -/
theorem of_handle {handle : PlaybackHandle} {cancelled : Bool}
    (h : Lawful rig source volume self) (hheld : self.handle = .held)
    (hflag : cancelled = true → handle = .dropped ∨ self.stage.isOver = true)
    (hdropped : handle = .dropped → cancelled = true)
    (hawaited : ∀ result, handle = .awaited result → self.stage.joined = some result) :
    Lawful rig source volume { self with handle := handle, cancelled := cancelled } where
  source_eq := h.source_eq
  volume_eq := h.volume_eq
  course := h.course.mono (by simp [hheld])
  flag := hflag
  dropped := hdropped
  awaited := hawaited

/-- The flag of a handle that is held is only up over a task that is over. -/
theorem flag_of_held (h : Lawful rig source volume self) (hheld : self.handle = .held)
    (hc : self.cancelled = true) : self.stage.isOver = true :=
  (h.flag hc).resolve_left (by simp [hheld])

theorem poll (h : Lawful rig source volume self) :
    Lawful rig source volume (self.step rig .poll) := by
  simp only [step]
  split
  case h_1 result hheld hj =>
    exact h.of_handle hheld (fun hc => .inr (h.flag_of_held hheld hc)) (by simp)
      (by rintro _ ⟨⟩; exact hj)
  case h_2 => exact h

theorem drop (h : Lawful rig source volume self) :
    Lawful rig source volume (self.step rig .drop) := by
  simp only [step]
  split
  case h_1 hheld => exact h.of_handle hheld (fun _ => .inl rfl) (fun _ => rfl) (by simp)
  case h_2 result hr =>
    have hover := PlaybackStage.isOver_of_joined (h.awaited result hr)
    exact { h with flag := fun _ => .inr hover, dropped := fun _ => rfl }
  case h_3 => exact h

theorem detach (h : Lawful rig source volume self) :
    Lawful rig source volume (self.step rig .detach) := by
  simp only [step]
  split
  case h_1 hheld =>
    exact h.of_handle hheld (fun hc => .inr (h.flag_of_held hheld hc)) (by simp) (by simp)
  case h_2 => exact h

theorem step (h : Lawful rig source volume self) (action : PlaybackAction D) :
    Lawful rig source volume (self.step rig action) := by
  cases action with
  | work => exact h.work
  | panic => exact h.panic
  | play move => exact h.play move
  | poll => exact h.poll
  | drop => exact h.drop
  | detach => exact h.detach

theorem run (h : Lawful rig source volume self) (actions : List (PlaybackAction D)) :
    Lawful rig source volume (self.run rig actions) := by
  induction actions generalizing self with
  | nil => exact h
  | cons action actions ih => exact ih (h.step action)

end Lawful

/-- What every action keeps, a run keeps. -/
theorem run_induction {Q : Playback V P → Prop} (h : Q self)
    (hstep : ∀ self action, Q self → Q (self.step rig action))
    (actions : List (PlaybackAction D)) : Q (self.run rig actions) := by
  induction actions generalizing self with
  | nil => exact h
  | cons action actions ih => exact ih (hstep self action h)

theorem run_append (rig : Rig V P D) (self : Playback V P)
    (actions more : List (PlaybackAction D)) :
    self.run rig (actions ++ more) = (self.run rig actions).run rig more := by
  simp [run,List.foldl_append]

-- ════════════════════════════════════════════════════════════════════════
-- How far a task is from its end
-- ════════════════════════════════════════════════════════════════════════

/-- The steps of the task until its audio is with the player. -/
def rank : PlaybackStage → ℕ
  | .queued => 6
  | .opening => 5
  | .reading => 4
  | .decoding => 3
  | .decoded => 2
  | .appending => 1
  | _ => 0

/-- The steps a task takes at most once its flag is up. -/
def tail : PlaybackStage → ℕ
  | .queued => 1
  | .opening => 4
  | .reading => 3
  | .decoding => 2
  | .decoded => 1
  | .appending => 3
  | .looping => 2
  | .sleeping => 1
  | .returned _ => 0
  | .panicked => 0

theorem tail_le (stage : PlaybackStage) : tail stage ≤ 4 := by
  cases stage <;> simp [tail]

theorem isOver_of_tail {stage : PlaybackStage} (h : tail stage = 0) : stage.isOver = true := by
  cases stage <;> first | rfl | cases h

theorem rank_work (rig : Rig V P D) (self : Playback V P) :
    rank (self.work rig).stage ≤ rank self.stage - 1 := by
  unfold work
  cases hs : self.stage with
  | opening => cases rig.sink <;> simp [rank,finish]
  | reading => cases hsource : self.source <;> simp [rank,finish,hsource]
  | decoding => cases rig.decoder <;> simp [rank,finish]
  | appending => simp [rank]
  | returned _ => simp [rank,hs]
  | panicked => simp [rank,hs]
  | _ =>
    dsimp only
    split <;> simp [rank,finish]

/-- With the flag up every step of the task takes it towards its end. -/
theorem tail_work (rig : Rig V P D) (hc : self.cancelled = true) :
    tail (self.work rig).stage ≤ tail self.stage - 1 := by
  unfold work
  cases hs : self.stage with
  | opening => cases rig.sink <;> simp [tail,finish]
  | reading => cases hsource : self.source <;> simp [tail,finish,hsource]
  | decoding => cases rig.decoder <;> simp [tail,finish]
  | appending => simp [tail]
  | looping =>
    dsimp only
    split <;> simp [tail,finish]
  | returned _ => simp [tail,hs]
  | panicked => simp [tail,hs]
  | _ => simp [hc,tail,finish]

theorem cancelled_step (rig : Rig V P D) (action : PlaybackAction D) (hc : self.cancelled = true) :
    (self.step rig action).cancelled = true := by
  cases action with
  | work =>
    simp only [step,work]
    repeat' split
    all_goals exact hc
  | _ =>
    simp only [step]
    repeat' split
    all_goals first | exact hc | rfl

/-- What is no step of the task can only end it. -/
theorem tail_step (rig : Rig V P D) {action : PlaybackAction D} (ha : action.isWork = false) :
    tail (self.step rig action).stage ≤ tail self.stage := by
  cases action with
  | work => cases ha
  | _ =>
    simp only [step]
    repeat' split
    all_goals first | exact Nat.le_refl _ | exact Nat.zero_le _

theorem tail_run (rig : Rig V P D) (hc : self.cancelled = true)
    (actions : List (PlaybackAction D)) :
    tail (self.run rig actions).stage ≤
      tail self.stage - actions.countP PlaybackAction.isWork := by
  induction actions generalizing self with
  | nil => exact Nat.le_refl _
  | cons action actions ih =>
    have hrest := ih (cancelled_step rig action hc)
    simp only [run,List.foldl_cons] at hrest ⊢
    cases ha : action.isWork with
    | true =>
      have hstep : tail (self.step rig action).stage ≤ tail self.stage - 1 := by
        cases action with
        | work => exact tail_work rig hc
        | _ => cases ha
      rw [List.countP_cons_of_pos ha]
      omega
    | false =>
      have hstep : tail (self.step rig action).stage ≤ tail self.stage := tail_step rig ha
      rw [List.countP_cons_of_neg (by simp [ha])]
      omega

/-- The task is over and its player dropped, with the device and the player as they were. -/
structure Over (before self : Playback V P) : Prop where
  ended : self.stage.isOver = true
  player : self.player = none
  opened : self.opened = before.opened
  appended : self.appended = before.appended

/-- Nothing happens to a playback whose task is over but to its handle. -/
theorem Over.step {before : Playback V P} (h : Over before self) (action : PlaybackAction D) :
    Over before (self.step rig action) := by
  obtain ⟨ho,hp,hopened,happended⟩ := h
  cases action with
  | work =>
    have hsame : self.work rig = self := by
      unfold work
      cases hs : self.stage with
      | returned _ => rfl
      | panicked => rfl
      | _ =>
        rw [hs] at ho
        cases ho
    exact (congrArg (Over before) hsame).mpr ⟨ho,hp,hopened,happended⟩
  | panic =>
    have hsame : self.step rig .panic = self := by simp [Playback.step,ho]
    rw [hsame]
    exact ⟨ho,hp,hopened,happended⟩
  | play move => exact ⟨ho,by simp [Playback.step,hp],hopened,happended⟩
  | _ =>
    simp only [Playback.step]
    repeat' split
    all_goals exact ⟨ho,hp,hopened,happended⟩

theorem Lawful.player_of_over (h : Lawful rig source volume self)
    (ho : self.stage.isOver = true) : self.player = none := by
  have hcourse := h.course
  obtain ⟨vol,src,stage,player,cancelled,handle,released,opened,appended⟩ := self
  dsimp only at hcourse ho ⊢
  cases hcourse <;> first | rfl | cases ho

-- ════════════════════════════════════════════════════════════════════════
-- Dropping a handle
-- ════════════════════════════════════════════════════════════════════════

/-- The flag is up and the task has not been run, or is over without having been. -/
def Unopened (self : Playback V P) : Prop :=
  self.cancelled = true ∧ self.opened = false ∧
    (self.stage = .queued ∨ self.stage.isOver = true)

theorem Unopened.step (h : self.Unopened) (action : PlaybackAction D) :
    (self.step rig action).Unopened := by
  obtain ⟨hc,ho,hs⟩ := h
  refine ⟨cancelled_step rig action hc,?_⟩
  cases action with
  | work =>
    rcases hs with hs | hs
    · simp [Playback.step,work,hs,hc,finish,ho,PlaybackStage.isOver]
    · simp only [Playback.step,work]
      cases hstage : self.stage with
      | returned _ => exact ⟨ho,.inr (by rw [hstage]; rfl)⟩
      | panicked => exact ⟨ho,.inr (by rw [hstage]; rfl)⟩
      | _ => rw [hstage] at hs; cases hs
  | panic =>
    simp only [Playback.step]
    split
    · exact ⟨ho,hs⟩
    · exact ⟨ho,.inr rfl⟩
  | _ =>
    simp only [Playback.step]
    repeat' split
    all_goals exact ⟨ho,hs⟩

/-- The flag is up before the task looks at it for the last time ahead of the audio. -/
def Unfed (self : Playback V P) : Prop :=
  self.cancelled = true ∧ self.appended = false ∧
    (self.stage.isEarly = true ∨ self.stage.isOver = true)

/-- A task that is early with its flag up stays so, or ends. -/
theorem early_work (rig : Rig V P D) (hc : self.cancelled = true)
    (he : self.stage.isEarly = true) :
    (self.work rig).appended = self.appended ∧
      ((self.work rig).stage.isEarly = true ∨ (self.work rig).stage.isOver = true) := by
  unfold work
  cases hs : self.stage with
  | opening => cases rig.sink <;> simp [finish,PlaybackStage.isEarly,PlaybackStage.isOver]
  | reading =>
    cases hsource : self.source <;>
      simp [finish,PlaybackStage.isEarly,PlaybackStage.isOver,hsource]
  | decoding => cases rig.decoder <;> simp [finish,PlaybackStage.isEarly,PlaybackStage.isOver]
  | queued => simp [hc,finish,PlaybackStage.isOver]
  | decoded => simp [hc,finish,PlaybackStage.isOver]
  | _ => rw [hs] at he; cases he

theorem Unfed.step (h : self.Unfed) (action : PlaybackAction D) :
    (self.step rig action).Unfed := by
  obtain ⟨hc,ha,hs⟩ := h
  refine ⟨cancelled_step rig action hc,?_⟩
  cases action with
  | work =>
    rcases hs with he | ho
    · obtain ⟨happended,hstage⟩ := early_work rig hc he
      exact ⟨happended.trans ha,hstage⟩
    · simp only [Playback.step,work]
      cases hstage : self.stage with
      | returned _ => exact ⟨ha,.inr (by rw [hstage]; rfl)⟩
      | panicked => exact ⟨ha,.inr (by rw [hstage]; rfl)⟩
      | _ => rw [hstage] at ho; cases ho
  | panic =>
    simp only [Playback.step]
    split
    · exact ⟨ha,hs⟩
    · exact ⟨ha,.inr rfl⟩
  | _ =>
    simp only [Playback.step]
    repeat' split
    all_goals exact ⟨ha,hs⟩

theorem Lawful.appended_of_early (h : Lawful rig source volume self)
    (he : self.stage.isEarly = true) : self.appended = false := by
  have hcourse := h.course
  obtain ⟨vol,src,stage,player,cancelled,handle,released,opened,appended⟩ := self
  dsimp only at hcourse he ⊢
  cases hcourse <;> first | rfl | cases he

theorem Lawful.opened_of_queued (h : Lawful rig source volume self)
    (hs : self.stage = .queued) : self.opened = false := by
  have hcourse := h.course
  obtain ⟨vol,src,stage,player,cancelled,handle,released,opened,appended⟩ := self
  dsimp only at hcourse hs ⊢
  subst hs
  cases hcourse
  rfl

/-- A handle is dropped, wherever the task is. Before the task was run, the device is never
asked for; before the task looks at the flag for the last time ahead of the audio, no player
is ever given it; and in any case the task is over after four more steps of its own, its
player dropped, and nothing is done to the device or a player from then on. -/
theorem dropped_playback (rig : Rig V P D) (volume : V) (source : Except PlaybackError Unit)
    (before after : List (PlaybackAction D))
    (hheld : ((playWith volume source).run rig before).handle = .held) :
    let self := (playWith volume source).run rig before
    let later := (self.step rig .drop).run rig after
    (self.stage = .queued → later.opened = false) ∧
    (self.stage.isEarly = true → later.appended = false) ∧
    (4 ≤ after.countP PlaybackAction.isWork →
      later.stage.isOver = true ∧ later.player = none ∧
      ∀ more, Over later (later.run rig more)) := by
  intro self later
  have hl : Lawful rig source volume self := (lawful_playWith rig volume source).run before
  have hdrop : self.step rig .drop = { self with handle := .dropped, cancelled := true } := by
    simp only [step]
    rw [hheld]
  have hc : (self.step rig .drop).cancelled = true := by rw [hdrop]
  have hlater : Lawful rig source volume later := (hl.step .drop).run after
  refine ⟨?_,?_,?_⟩
  · intro hs
    have hstart : (self.step rig .drop).Unopened := by
      rw [hdrop]
      exact ⟨rfl,hl.opened_of_queued hs,.inl hs⟩
    exact (run_induction hstart (fun _ action h => h.step action) after).2.1
  · intro he
    have hstart : (self.step rig .drop).Unfed := by
      rw [hdrop]
      exact ⟨rfl,hl.appended_of_early he,.inl he⟩
    exact (run_induction hstart (fun _ action h => h.step action) after).2.1
  · intro hcount
    have htail : tail later.stage ≤
        tail (self.step rig .drop).stage - after.countP PlaybackAction.isWork :=
      tail_run rig hc after
    have hle := tail_le (self.step rig .drop).stage
    have hover : later.stage.isOver = true := isOver_of_tail (by omega)
    have hplayer := hlater.player_of_over hover
    refine ⟨hover,hplayer,fun more => ?_⟩
    exact run_induction (Q := Over later) ⟨hover,hplayer,rfl,rfl⟩
      (fun _ action h => h.step action) more

/-- A library whose players count down what they have left. -/
def countdown (length : ℕ) : Rig Unit ℕ Unit where
  sink := .ok ()
  decoder := .ok ()
  connectNew := 0
  setVolume _ left := left
  append left := left + length
  empty left := left == 0
  advance _ left := left - 1

/-- A handle that is dropped between the last look at the flag and the audio: the player is
given the audio, and dropped with most of it left. -/
theorem dropped_playback_late :
    let before : List (PlaybackAction Unit) := [.work,.work,.work,.work,.work]
    let after : List (PlaybackAction Unit) := [.work,.play (),.work,.work,.play (),.work]
    let later := (((playReader ()).run (countdown 9) before).step (countdown 9) .drop).run
      (countdown 9) after
    later.appended = true ∧ later.released = some 8 ∧ later.stage.isOver = true := by
  intro before after later
  refine ⟨by decide,by decide,?_⟩
  exact ((dropped_playback (countdown 9) () (.ok ()) before after rfl).2.2 (by decide)).1

-- ════════════════════════════════════════════════════════════════════════
-- Awaiting and detaching
-- ════════════════════════════════════════════════════════════════════════

theorem Lawful.of_joined {result : Except PlaybackError Unit} (h : Lawful rig source volume self)
    (hnot : self.handle ≠ .dropped) (hj : self.stage.joined = some result) :
    (result = .ok () → failure rig source = none ∧ ∃ player, self.released = some player ∧
      Plays rig volume player ∧ rig.empty player = true) ∧
    ∀ error, result = .error error →
      (error = .task ∧ self.stage = .panicked) ∨
        (failure rig source = some error ∧ self.appended = false) := by
  have hcourse := h.course
  obtain ⟨vol,src,stage,player,cancelled,handle,released,opened,appended⟩ := self
  dsimp only at hcourse hnot hj ⊢
  cases hcourse with
  | finished hf hp he =>
    cases hj
    exact ⟨fun _ => ⟨hf,_,rfl,hp,he⟩,by intro _ h; cases h⟩
  | stopped hd => exact absurd hd hnot
  | failed hf =>
    cases hj
    refine ⟨(by intro h; cases h),?_⟩
    rintro _ ⟨⟩
    exact .inr ⟨hf,rfl⟩
  | panicked =>
    cases hj
    refine ⟨(by intro h; cases h),?_⟩
    rintro _ ⟨⟩
    exact .inl ⟨rfl,rfl⟩
  | _ => cases hj

theorem run_work (rig : Rig V P D) (self : Playback V P) (n : ℕ) :
    rank (self.run rig (List.replicate n .work)).stage ≤ rank self.stage - n := by
  induction n generalizing self with
  | zero => exact Nat.le_refl _
  | succ n ih =>
    have hstep := rank_work rig self
    have hrest := ih (self.work rig)
    simp only [List.replicate_succ,run,List.foldl_cons,step] at hrest ⊢
    omega

theorem run_play (rig : Rig V P D) (self : Playback V P) (moves : List D) :
    self.run rig (moves.map .play) =
      { self with player := self.player.map (rig.advanced moves) } := by
  induction moves generalizing self with
  | nil =>
    obtain ⟨vol,src,stage,player,cancelled,handle,released,opened,appended⟩ := self
    cases player <;> rfl
  | cons move moves ih =>
    refine (ih (self.step rig (.play move))).trans ?_
    obtain ⟨vol,src,stage,player,cancelled,handle,released,opened,appended⟩ := self
    cases player <;> rfl

/-- A task that has handed its audio over returns in two steps once its player is empty. -/
theorem over_of_empty (rig : Rig V P D) (hr : rank self.stage = 0)
    (he : self.player.all rig.empty = true) :
    (self.run rig [.work,.work]).stage.isOver = true := by
  obtain ⟨vol,src,stage,player,cancelled,handle,released,opened,appended⟩ := self
  dsimp only at he
  cases stage with
  | looping => simp [run,step,work,he,finish,PlaybackStage.isOver]
  | sleeping => cases cancelled <;> simp [run,step,work,he,finish,PlaybackStage.isOver]
  | returned _ => rfl
  | panicked => rfl
  | _ => cases hr

theorem exists_end (rig : Rig V P D) (hdrains : rig.Drains) (self : Playback V P) :
    ∃ schedule : List (PlaybackAction D),
      (∀ action ∈ schedule, action = .work ∨ ∃ move, action = .play move) ∧
      (self.run rig schedule).stage.isOver = true := by
  let ready := self.run rig (List.replicate 6 .work)
  have hready : rank ready.stage = 0 := by
    have hle : rank self.stage ≤ 6 := by cases self.stage <;> simp [rank]
    have hwork : rank ready.stage ≤ rank self.stage - 6 := run_work rig self 6
    omega
  obtain ⟨moves,hmoves⟩ :
      ∃ moves, (ready.player.map (rig.advanced moves)).all rig.empty = true := by
    cases ready.player with
    | none => exact ⟨[],rfl⟩
    | some player => exact hdrains player
  refine ⟨List.replicate 6 .work ++ (moves.map .play ++ [.work,.work]),?_,?_⟩
  · intro action ha
    simp only [List.mem_append,List.mem_replicate,List.mem_map,List.mem_cons,List.not_mem_nil,
      or_false,or_self] at ha
    rcases ha with ⟨_,rfl⟩ | ⟨move,_,rfl⟩ | rfl
    · exact .inl rfl
    · exact .inr ⟨move,rfl⟩
    · exact .inl rfl
  · rw [run_append,run_append,run_play]
    exact over_of_empty rig hready hmoves

theorem drains_countdown (length : ℕ) : (countdown length).Drains := by
  intro left
  refine ⟨List.replicate left (),?_⟩
  induction left with
  | zero => rfl
  | succ left ih => exact ih

/-- A file that is missing is reported as such, if there is a device. -/
example : ((playFile (.error ⟨"missing"⟩) ()).run (countdown 5)
    [.work,.work,.work,.poll]).stage.joined = some (.error (.io ⟨"missing"⟩)) := by
  decide

end Playback

end BloopClient
