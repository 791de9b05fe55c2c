import BloopClient.Connection

/-!
# The background connection task

The state of a connection task, its handlers, and its loop. The handlers run
one at a time and to completion, so each is a function of the task's state; the
events it causes are pushed on the trace in the order of the source.
-/

namespace BloopClient
open Tracelib

/-- The fields a connection task writes, the value on its status watch, and the
trace of what it has done. -/
structure ClientTask where
  config : Option ConnectionConfig
  connection : Option Connection
  status : ConnectionStatus
  credentialsInvalid : Bool
  shutdown : Bool
  trace : Trace
  deriving DecidableEq, Repr

namespace ClientTask

/-- The task a builder spawns. -/
def build (config : Option ConnectionConfig) : ClientTask where
  config := config
  connection := none
  status := if config.isSome then .disconnected else .unconfigured
  credentialsInvalid := false
  shutdown := false
  trace := []

def emit (self : ClientTask) (event : Event) : ClientTask :=
  { self with trace := event :: self.trace }

/-- Publishes a status, skipping the notification when it is unchanged. -/
def setStatus (self : ClientTask) (status : ConnectionStatus) : ClientTask :=
  if self.status = status then self
  else { self with status := status, trace := .published status :: self.trace }

/-- Forgets the connection, which closes its stream. -/
def closeConnection (self : ClientTask) : ClientTask :=
  match self.connection with
  | some connection =>
    { self with connection := none, trace := .closed connection.id :: self.trace }
  | none => self

def dropConnection (self : ClientTask) : ClientTask :=
  self.closeConnection.setStatus .disconnected

/-- Takes the connection, if there is one, announces the disconnect on it and
closes it. -/
def quitConnection (env : Env) (self : ClientTask) : ClientTask :=
  match self.connection with
  | some connection =>
    { self with
      connection := none
      trace := .closed connection.id :: connection.quit env self.trace }
  | none => self

def answer (self : ClientTask) (response : ℕ) (answer : Answer) : ClientTask :=
  self.emit (.answered response answer)

/-- The exchange of a request on the stored connection. A fatal protocol error
means the server has already closed the connection, so it is dropped before
the caller hears of it. -/
def exchange (env : Env) (self : ClientTask) (connection : Connection) (message : RawMessage)
    (response : ℕ) : ClientTask :=
  let result := connection.requestRaw env (.request response) message self.trace
  let self := { self with trace := result.2 }
  match result.1.timeout with
  | .ok (.ok raw) =>
    if env.protocol.fatalReply raw then self.dropConnection.answer response (.ok raw)
    else self.answer response (.ok raw)
  | .ok (.error _) => self.dropConnection.answer response (.error .disconnected)
  | .error _ => self.dropConnection.answer response (.error .disconnected)

def handleCommand (env : Env) (self : ClientTask) (command : Command) : ClientTask :=
  let self := self.emit (.received command)
  match command with
  | .configure config =>
    if self.shutdown then self
    else
      let self := { self.quitConnection env with credentialsInvalid := false }
      let self := self.setStatus (if config.isSome then .disconnected else .unconfigured)
      { self with config := config }.emit (.configured config)
  | .request message response =>
    if self.shutdown then self.answer response (.error .shutdown)
    else
      match self.connection with
      | none => self.answer response (.error .disconnected)
      | some connection => self.exchange env connection message response
  | .shutdown response =>
    let self := { self.quitConnection env with shutdown := true }
    (self.setStatus .shutdown).emit (.acknowledged response)

/-- Stores a connection and reports it. -/
def store (self : ClientTask) (connection : Connection) : ClientTask :=
  let self := { self with credentialsInvalid := false }
  let self := self.setStatus (.connected connection.capabilities)
  { self with connection := some connection }.emit (.stored connection.id)

/-- The arm of `try_connect` for an established connection: the hook runs
before the connection is stored. A failed hook's connection is announced as
quit; one whose deadline passed is just closed. -/
def adopt (env : Env) (self : ClientTask) (connection : Connection) : ClientTask :=
  match env.onConnect with
  | none => self.store connection
  | some hook =>
    let result := (hook connection.id connection.capabilities).run env connection self.trace
    match result.1.timeout with
    | .ok (.ok ()) =>
      { self with trace := .hookReturned connection.id .ok :: result.2 }.store connection
    | .ok (.error _) =>
      let trace := connection.quit env (.hookReturned connection.id .failed :: result.2)
      ({ self with trace := trace }.setStatus .disconnected).emit (.closed connection.id)
    | .error _ =>
      let trace := .hookReturned connection.id .timedOut :: result.2
      ({ self with trace := trace }.setStatus .disconnected).emit (.closed connection.id)

def tryConnect (env : Env) (self : ClientTask) : ClientTask :=
  if self.credentialsInvalid && env.invalidCredentialsPolicy == .latch then self
  else
    match self.config with
    | none => self
    | some config =>
      let c := dials self.trace
      let result := connect env c config (.connecting c config :: self.trace)
      match result.1.timeout with
      | .error _ =>
        { self with trace := .connectReturned c .timedOut :: result.2 }.setStatus .disconnected
      | .ok (.ok (.connected connection)) =>
        { self with trace := .connectReturned c .accepted :: result.2 }.adopt env connection
      | .ok (.ok .invalidCredentials) =>
        { self with
          credentialsInvalid := true
          trace := .connectReturned c .rejected :: result.2 }.setStatus .invalidCredentials
      | .ok (.error error) =>
        { self with trace := .connectReturned c (.failed error) :: result.2 }.setStatus
          .disconnected

def handleTick (env : Env) (self : ClientTask) : ClientTask :=
  if self.shutdown then self
  else
    match self.connection with
    | some connection =>
      let result := connection.ping env self.trace
      let self := { self with trace := result.2 }
      match result.1.timeout with
      | .ok (.ok ()) => self
      | .ok (.error _) => self.dropConnection
      | .error _ => self.dropConnection
    | none => self.tryConnect env

/-- All handles are gone: announce the disconnect and let the remaining status
receivers observe a terminal state. -/
def windDown (env : Env) (self : ClientTask) : ClientTask :=
  ((self.emit .channelClosed).quitConnection env).setStatus .shutdown

/-- What one round of the loop's `select!` yields. -/
inductive Select
  | recv (command : Option Command)
  | tick
  deriving DecidableEq, Repr

/-- The loop, over what its rounds yield. The rounds seen so far may be any
prefix of a run, so a statement over all lists is one about every moment
between two rounds; nothing follows the closing of the channel. -/
def run (env : Env) : ClientTask → List Select → ClientTask
  | self, [] => self
  | self, .recv (some command) :: rounds => run env (self.handleCommand env command) rounds
  | self, .recv none :: _ => self.windDown env
  | self, .tick :: rounds => run env (self.handleTick env) rounds

/-- The rounds of a loop whose channel is open follow one another. -/
theorem run_append {env : Env} {self : ClientTask} {before : List Select}
    (hb : .recv none ∉ before) (after : List Select) :
    self.run env (before ++ after) = (self.run env before).run env after := by
  induction before generalizing self with
  | nil => rfl
  | cons round before ih =>
    have hb' : .recv none ∉ before := fun hm => hb (List.mem_cons_of_mem _ hm)
    cases round with
    | recv command =>
      cases command with
      | none => exact absurd List.mem_cons_self hb
      | some command => exact ih hb'
    | tick => exact ih hb'

end ClientTask

end BloopClient
