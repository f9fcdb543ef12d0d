import MiniHF.Host.Client
import MiniHF.Lib.Pipe
import MiniHF.Radio.ReplyProof
import MiniHF.Uart.Console
import MiniHF.Uart.Receiver

/-!
# Host and device on one line

The two ends put together: the calls and the reader thread of the host library,
the bytes on their way in either direction, and `uart_isr`, the two work items and
the timer of the firmware. The events are what these do at a time: a byte that
`uart_isr` reads, a message that the handler takes, a transmit pass, a look into the
map of responses.

A message is dealt with in one event, `next`, though its handler can be interrupted.
What `uart_isr` does meanwhile comes to the same before it: a byte that it reads goes
where the handler does not look, and a transmit pass only makes room. So does the timer:
expiries between the statements of the engine are what `interleaved_refines_atomic` is
about. Only a report of the main loop that gets between the texts of an accepted start
and its ACK is not seen here; the texts would swallow the report in place of the ACK.

The line loses nothing and changes nothing. What goes wrong goes wrong at the ends:
a write that fails half way, a full queue, a full ring, text of the console between
two frames.
-/

namespace MiniHF.Link

open Host Device

/-- The functions the two ends take from elsewhere. -/
structure Libs where
  /-- `crc16_ccitt`. -/
  crc16Ccitt : UInt16 → List UInt8 → UInt16
  /-- `Crc::<u16>::new(&CRC_16_KERMIT).checksum`. -/
  crc16Kermit : List UInt8 → UInt16
  /-- `encode` of the `cobs` crate, and the part of the buffer it filled. -/
  encode : List UInt8 → List UInt8
  /-- `decode_vec` of the `cobs` crate. -/
  decodeVec : List UInt8 → Option (List UInt8)
  /-- What a buffer on the device's stack held before. -/
  junk : ∀ n, Vector UInt8 n

/-! ## The host -/

/-- A call of `transact` or `send_only` that has an id. -/
structure Pending where
  request : Packet
  /-- It is a `transact`. -/
  awaits : Bool
  phase : Phase
  /-- A longer payload is refused before it gets an id. -/
  short : request.payload.length ≤ 255

/-- The client: its calls in the order of their ids, the port, and the reader thread. -/
structure HostEnd where
  nextId : UInt16
  portOpen : Bool
  calls : List Pending
  reader : Reader
  /-- Proof only: the calls whose frame reached the port whole, in order, and their requests. -/
  written : List (Nat × Packet)

/-- A client whose port has just been opened. -/
def HostEnd.init : HostEnd where
  nextId := 1
  portOpen := true
  calls := []
  reader := Reader.init
  written := []

/-- Change call `n`. -/
def HostEnd.setCall (h : HostEnd) (n : Nat) (c : Pending) : HostEnd :=
  { h with calls := h.calls.set n c }

/-- Taking the id. -/
def HostEnd.begin (h : HostEnd) (cmdId : UInt8) (payload : List UInt8) (awaits : Bool) : HostEnd :=
  if hlong : payload.length > 255 then h
  else
    { h with
      nextId := h.nextId + 1
      calls := h.calls ++
        [{ request := { type := cmdId, id := h.nextId, payload }, awaits, phase := .allocated
           short := Nat.le_of_not_lt hlong }] }

/-- One look of call `n` into the map. -/
def HostEnd.poll (h : HostEnd) (n : Nat) : HostEnd :=
  match h.calls[n]? with
  | some c =>
      if c.phase = .waiting then
        match h.reader.responses c.request.id with
        | some pkt =>
            { h.setCall n { c with phase := .returned (resultOf pkt) } with
              reader := { h.reader with
                responses := fun id => if id = c.request.id then none else h.reader.responses id } }
        | none => h
      else h
  | none => h

/-- Call `n` finds its deadline passed. -/
def HostEnd.timeout (h : HostEnd) (n : Nat) : HostEnd :=
  match h.calls[n]? with
  | some c => if c.phase = .waiting then h.setCall n { c with phase := .returned .timeout } else h
  | none => h

/-- `close`, as far as the port goes. -/
def HostEnd.close (h : HostEnd) : HostEnd := { h with portOpen := false }

/-- `close` clears the map. -/
def HostEnd.clear (h : HostEnd) : HostEnd :=
  if h.portOpen then h else { h with reader := { h.reader with responses := fun _ => none } }

/-- A round of the reader, up to its loop over the frames: that loop has ended for the last round. -/
def HostEnd.fetch (h : HostEnd) (up : Pipe UInt8) (n : Nat) : HostEnd × Pipe UInt8 :=
  if h.portOpen && !h.reader.rxBuf.contains 0 then
    let (bytes, up) := up.take n
    ({ h with reader := { h.reader with rxBuf := h.reader.rxBuf ++ bytes } }, up)
  else (h, up)

section Libs

variable (lib : Libs)

/-- `frame_packet`. -/
def framePacket (p : Packet) : Option (List UInt8) :=
  (buildPacket lib.crc16Kermit p.type p.id p.payload).map fun raw => lib.encode raw ++ [0x00]

/-- Call `n` gets the port lock; `cut` is how much `write_all` writes where it fails. -/
def HostEnd.write (h : HostEnd) (n : Nat) (cut : Option Nat) : HostEnd × List UInt8 :=
  match h.calls[n]? with
  | some c =>
      if c.phase = .allocated then
        if h.portOpen then
          match framePacket lib c.request, cut with
          | some bytes, none =>
              ({ h.setCall n { c with
                  phase := if c.awaits then .waiting else .returned (.ok []) } with
                written := h.written ++ [(n, c.request)] }, bytes)
          | some bytes, some k =>
              ({ h.setCall n { c with phase := .returned .io } with
                written := if bytes.length ≤ k then h.written ++ [(n, c.request)] else h.written },
                bytes.take k)
          | none, _ => (h, [])
        else (h.setCall n { c with phase := .returned .portClosed }, [])
      else (h, [])
  | none => (h, [])

/-- One round of the reader's loop over the complete frames of `rx_buf`. -/
def takeFrame (r : Reader) : Reader :=
  match r.rxBuf.findIdx? (· == 0x00) with
  | some idx =>
      let frameData := r.rxBuf.take (idx + 1)
      let frameBytes := frameData.take (frameData.length - 1)
      ({ r with rxBuf := r.rxBuf.drop (idx + 1) } : Reader).frame lib.decodeVec lib.crc16Kermit
        frameBytes
  | none => r

/-! ## The device -/

/-- The firmware: both sides of `uart_handler.c`, and what the commands work on. -/
structure Board where
  receiver : Receiver
  device : Device
  transmit : Transmit
  /-- Proof only: the requests handled, in order, each with the reply sent to it. -/
  answered : List (Packet × Packet)

/-- Where output goes: text to the UART at once, a packet's frame into the transmit ring. -/
def emit (t : Transmit) : List Output → Except Fault (Transmit × List UInt8)
  | [] => .ok (t, [])
  | .printk text :: out => do
      let (t, bytes) ← emit t out
      return (t, textBytes text ++ bytes)
  | .packet p :: out => do
      let t ← t.step lib.crc16Ccitt lib.junk (.send p.type p.payload p.id)
      emit t out

/-- The device moves on, and what it puts out goes to the UART. -/
def Board.become (b : Board) (device : Device) : Except Fault (Board × List UInt8) := do
  let (transmit, bytes) ← emit lib b.transmit (outputSince b.device device)
  return ({ b with device, transmit }, bytes)

/-- `parse_dispatch_packet`; a reset loses what the rings and the queue hold. -/
def Board.handle (b : Board) (data : List UInt8) : Except Fault (Board × List UInt8) :=
  let device := b.device.parseDispatchPacket lib.crc16Ccitt data
  match checkPacket lib.crc16Ccitt data with
  | some p =>
      if p.type = 0xFD then
        .ok ({ b with receiver := Receiver.init, device, transmit := Transmit.init }, [])
      else
        ({ b with answered :=
            b.answered ++ (replies (outputSince b.device device)).map (p, ·) } : Board).become lib
          device
  | none => b.become lib device

/-- One round of the loop of `rx_dispatch_handler`. -/
def Board.next (b : Board) : Except Fault (Board × List UInt8) := do
  let receiver ← b.receiver.step .next
  match b.receiver.handlerRunning, b.receiver.rxPktMsgq.items with
  | true, msg :: _ => ({ b with receiver } : Board).handle lib (unpackMsg msg)
  | _, _ => return ({ b with receiver }, [])

/-- A transmit pass, and the bytes the UART took. -/
def Board.pass (b : Board) (contiguous accepted : Nat) : Board × List UInt8 :=
  let transmit := uartIsrTx b.transmit contiguous accepted
  let items := b.transmit.txRingBuf.items
  ({ b with transmit }, items.take (items.length - transmit.txRingBuf.items.length))

end Libs

/-! ## Both -/

/-- Both ends, and what is on its way between them. -/
structure Ends where
  host : HostEnd
  /-- From the host to the device. -/
  down : Pipe UInt8
  board : Board
  /-- From the device to the host. -/
  up : Pipe UInt8

/-- A client has just been opened on a device that has just started its main loop. -/
def Ends.init (device : Device) : Ends where
  host := HostEnd.init
  down := Pipe.empty
  board := { receiver := Receiver.init, device, transmit := Transmit.init, answered := [] }
  up := Pipe.empty

/-- What can happen. -/
inductive LinkEvent where
  /-- A thread enters `transact` (`awaits`) or `send_only` and takes an id. -/
  | begin (cmdId : UInt8) (payload : List UInt8) (awaits : Bool)
  /-- Call `n` writes its frame, or the part of it that `cut` says. -/
  | write (n : Nat) (cut : Option Nat)
  /-- Call `n` looks into the map. -/
  | poll (n : Nat)
  /-- Call `n` finds its deadline passed. -/
  | timeout (n : Nat)
  /-- The reader thread reads up to `n` bytes. -/
  | fetch (n : Nat)
  /-- The reader thread deals with one complete frame. -/
  | frame
  /-- `close` drops the port. -/
  | close
  /-- `close` clears the map. -/
  | clear
  /-- `uart_isr` reads a byte; `msg` is what its local held before. -/
  | byte (msg : RxMsg)
  /-- The work queue starts `rx_dispatch_handler`. -/
  | start
  /-- The handler takes a message from the queue and deals with it. -/
  | next
  /-- A transmit pass of `uart_isr`. -/
  | pass (contiguous accepted : Nat)
  /-- `tx_timer` expires. -/
  | expire
  /-- The work queue runs `tx_work_handler`. -/
  | work
  /-- `debug_printf` of the main loop. -/
  | report (message : String)

section Libs

variable (lib : Libs)

/-- The device moves, and its bytes go on the line. -/
def Ends.onBoard (s : Ends) (r : Except Fault (Board × List UInt8)) : Except Fault Ends := do
  let (board, bytes) ← r
  return { s with board, up := s.up.send bytes }

/-- One event; one that is not enabled changes nothing. -/
def Ends.step (s : Ends) : LinkEvent → Except Fault Ends
  | .begin cmdId payload awaits => .ok { s with host := s.host.begin cmdId payload awaits }
  | .write n cut =>
      let (host, bytes) := s.host.write lib n cut
      .ok { s with host, down := s.down.send bytes }
  | .poll n => .ok { s with host := s.host.poll n }
  | .timeout n => .ok { s with host := s.host.timeout n }
  | .fetch n =>
      let (host, up) := s.host.fetch s.up n
      .ok { s with host, up }
  | .frame => .ok { s with host := { s.host with reader := takeFrame lib s.host.reader } }
  | .close => .ok { s with host := s.host.close }
  | .clear => .ok { s with host := s.host.clear }
  | .byte msg =>
      match s.down.take 1 with
      | ([], _) => .ok s
      | (b :: _, down) => do
          let receiver ← s.board.receiver.step (.byte b msg)
          return { s with down, board := { s.board with receiver } }
  | .start => do
      let receiver ← s.board.receiver.step .start
      return { s with board := { s.board with receiver } }
  | .next => s.onBoard (s.board.next lib)
  | .pass contiguous accepted => s.onBoard (.ok (s.board.pass contiguous accepted))
  | .expire => s.onBoard (s.board.become lib (deviceStep lib.crc16Ccitt s.board.device .expire))
  | .work =>
      -- one thread runs both work items
      if s.board.receiver.handlerRunning then .ok s
      else s.onBoard (s.board.become lib (deviceStep lib.crc16Ccitt s.board.device .work))
  | .report message => s.onBoard (s.board.become lib (s.board.device.sendDebugMessage message))

/-- Host and device as a system: a fault is a state it never leaves. -/
def linkStep (s : Except Fault Ends) (e : LinkEvent) : Except Fault Ends :=
  s >>= fun l => l.step lib e

end Libs

end MiniHF.Link
