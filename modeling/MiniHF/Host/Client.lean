import MiniHF.Host.Reader
import MiniHF.Lib.Runs

/-!
# Concurrent calls of the host client

`transact` and `send_only` take the next id, write a frame under the port lock,
and `transact` then polls the map of responses for its id until the deadline. The
steps between which other threads can run are the events: taking the id, writing,
one poll, giving up, and the reader thread storing a packet. The device may answer
any request that was written, at any time, or not at all.

A reply remembers which call it answers. The code does not know this: it goes by
the id, which is 16 bits wide and wraps.
-/

namespace MiniHF.Host

/-- `RESP_NACK`. -/
def respNack : UInt8 := 0xFE

/-- What `transact` and `send_only` return, once they have an id. -/
inductive CallResult where
  | ok (payload : List UInt8)
  | nack
  | timeout
  | portClosed
  | io
deriving DecidableEq, Repr

/-- How far a call has come. -/
inductive Phase where
  /-- It has taken its id. -/
  | allocated
  /-- It has written its frame and polls for a response. -/
  | waiting
  | returned (result : CallResult)
deriving DecidableEq, Repr

/-- A packet from the device. -/
structure Reply where
  /-- Proof only: the call whose request it answers. -/
  answers : Nat
  pkt : Packet
deriving DecidableEq, Repr

/-- A call of `transact` or `send_only`. -/
structure Call where
  request : Packet
  /-- It is a `transact`. -/
  awaits : Bool
  phase : Phase
  /-- Proof only: its frame has reached the port. -/
  sent : Bool
  /-- Proof only: the reply it removed from the map. -/
  consumed : Option Reply
deriving DecidableEq, Repr

/-- The client, its calls in the order of their ids, and what is on the line. -/
structure Client where
  nextId : UInt16
  /-- The requests written to the port, or `none` once it is closed. -/
  port : Option (List Packet)
  /-- The map of responses. -/
  responses : UInt16 → Option Reply
  calls : List Call
  /-- Replies the reader has not stored yet. -/
  inFlight : List Reply

/-- A client whose port has just been opened. -/
def Client.init : Client where
  nextId := 1
  port := some []
  responses := fun _ => none
  calls := []
  inFlight := []

/-- What can happen. -/
inductive ClientEvent where
  /-- A thread enters `transact` (`awaits`) or `send_only` and takes an id. -/
  | begin (cmdId : UInt8) (payload : List UInt8) (awaits : Bool)
  /-- Call `n` gets the port lock; `ok` says whether `write_all` succeeds. -/
  | write (n : Nat) (ok : Bool)
  /-- Call `n` looks into the map. -/
  | poll (n : Nat)
  /-- Call `n` finds its deadline passed. -/
  | timeout (n : Nat)
  /-- The device answers the request of call `n`. -/
  | reply (n : Nat) (ptype : UInt8) (payload : List UInt8)
  /-- The reader recognises the packet at place `k` of those on the line. -/
  | store (k : Nat)
  /-- `close` drops the port. What is on the line by then the reader may still store. -/
  | close
  /-- `close` clears the map. -/
  | clear

/-- What a call does with the response it removed. -/
def resultOf (pkt : Packet) : CallResult :=
  if pkt.type = respNack then .nack else .ok pkt.payload

/-- Change call `n`. -/
def Client.setCall (s : Client) (n : Nat) (c : Call) : Client := { s with calls := s.calls.set n c }

/-- Taking the id; a payload that is too long is refused before that. -/
def Client.begin (s : Client) (cmdId : UInt8) (payload : List UInt8) (awaits : Bool) : Client :=
  if payload.length > 255 then s
  else
    { s with
      nextId := s.nextId + 1
      calls := s.calls ++
        [{ request := { type := cmdId, id := s.nextId, payload }, awaits, phase := .allocated
           sent := false, consumed := none }] }

/-- Writing the frame under the port lock. -/
def Client.write (s : Client) (n : Nat) (c : Call) (ok : Bool) : Client :=
  match s.port with
  | none => s.setCall n { c with phase := .returned .portClosed }
  | some written =>
      if ok then
        { s.setCall n { c with
            phase := if c.awaits then .waiting else .returned (.ok []), sent := true } with
          port := some (written ++ [c.request]) }
      else s.setCall n { c with phase := .returned .io, sent := true }

/-- One look into the map: a response under the id is removed and decides the result. -/
def Client.poll (s : Client) (n : Nat) (c : Call) : Client :=
  match s.responses c.request.id with
  | some r =>
      { s.setCall n { c with phase := .returned (resultOf r.pkt), consumed := some r } with
        responses := fun id => if id = c.request.id then none else s.responses id }
  | none => s

/-- One event; one that is not enabled changes nothing. -/
def clientStep (s : Client) : ClientEvent → Client
  | .begin cmdId payload awaits => s.begin cmdId payload awaits
  | .write n ok =>
      match s.calls[n]? with
      | some c => if c.phase = .allocated then s.write n c ok else s
      | none => s
  | .poll n =>
      match s.calls[n]? with
      | some c => if c.phase = .waiting then s.poll n c else s
      | none => s
  | .timeout n =>
      match s.calls[n]? with
      | some c =>
          if c.phase = .waiting then s.setCall n { c with phase := .returned .timeout } else s
      | none => s
  | .reply n ptype payload =>
      match s.calls[n]? with
      | some c =>
          -- Nothing reads a reply to a port that is closed.
          if c.sent && s.port.isSome then
            { s with
              inFlight := s.inFlight ++
                [{ answers := n, pkt := { type := ptype, id := c.request.id, payload } }] }
          else s
      | none => s
  | .store k =>
      match s.inFlight[k]? with
      | some r =>
          let s := { s with inFlight := s.inFlight.eraseIdx k }
          if r.pkt.type = debugMsgCmd then s
          else { s with responses := insertResponse s.responses r.pkt.id r }
      | none => s
  | .close => { s with port := none }
  | .clear => if s.port.isNone then { s with responses := fun _ => none } else s

end MiniHF.Host
