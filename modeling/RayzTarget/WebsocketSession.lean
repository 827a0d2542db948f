import RayzTarget.WebsocketWorld
import RayzTarget.EventRuns
import Mathlib.Algebra.Group.Int.Defs

/-! # A session of the websocket client

The loop of `esp_websocket_client_task`, one step for each stretch of it, between the steps of the
calls that other tasks make into the client. What runs without the lock, the polls and the end of
the loop, may fall between any two frames of a message. -/
namespace WebsocketSession

open WebsocketClient WebsocketWorld EventRuns

structure Answers where
  connect : ℤ
  upgradeRequestStatus : ℤ
  rlen : ℤ
  bytes : List Byte
  payloadLen : ℤ
  fin : Bool
  opcode : Opcode
  pollRead : ℤ
  pollClosed : ℤ

def Answers.silent : Answers := ⟨0, 0, 0, [], 0, false, .none, 0, 0⟩

def toUInt64 (z : ℤ) : ℕ := (z % 2 ^ 64).toNat

def pingIntervalMs (c : Client) : ℕ := c.config.pingIntervalSec * 1000 % 2 ^ 32

/-- The product of two `int`s; it is in range up to 2147483 seconds. -/
def pingpongTimeoutMs (c : Client) : ℕ := toUInt64 (c.config.pingpongTimeoutSec * 1000)

section

variable (tick : ℕ → ℕ) (a : Answers) (w : World)

def leave : World := (w.emit .closeTransport).goto .stopping

def connect : World :=
  if w.client.transport = false then (w.update fun c => { c with run := false }).goto .unlocked
  else
    let w := (w.dispatchEvent .beforeConnect [] 0).emit (.connect a.connect)
    if a.connect < 0 then
      let w := w.update fun c => { c with wsHandshakeStatusCode := a.upgradeRequestStatus }
      ((w.error (.connectFailed a.connect)).abortConnection tick .tcpTransport).goto .unlocked
    else
      let w := w.update fun c =>
        { c with state := .connected, waitForPongResp := false, errorType := .none }
      (w.dispatchEvent .connected [] 0).goto .unlocked

def reconnect : World :=
  if w.client.config.autoReconnect = false then
    (w.update fun c => { c with run := false }).goto .unlocked
  else if w.tickGetMs tick - w.client.reconnectTickMs > toUInt64 w.client.waitTimeoutMs then
    let w := w.read
    (w.update fun c =>
      { c with state := .init, reconnectTickMs := w.tickGetMs tick }).read.goto .unlocked
  else w.read.goto .unlocked

def echoClose : World :=
  if w.client.closeFrameSentBit = false then
    ((w.emit (.control .close [] 0)).update fun c => { c with closeFrameSentBit := true }).goto
      .unlocked
  else w.goto .unlocked

def enter : World := if w.client.run = false then leave w else w.goto .locking

/-- The wait for the lock, and the `switch` -/
def lock : World :=
  if w.call.isSome then w
  else
    match w.client.state with
    | .init => connect tick a w
    | .connected => if w.client.closeFrameSentBit = false then w.goto .heartbeat else w.goto .select
    | .waitTimeout => reconnect tick w
    | .closing => echoClose w
    | _ => w.goto .unlocked

def sendPing : World :=
  let w := ((w.update fun c => { c with pingTickMs := w.tickGetMs tick }).read).emit
    (.control .ping [] 0)
  if w.client.waitForPongResp = false ∧ w.client.config.pingpongTimeoutSec ≠ 0 then
    (w.update fun c =>
      { c with pingpongTickMs := w.tickGetMs tick, waitForPongResp := true }).read.goto .pongCheck
  else w.goto .pongCheck

def heartbeat : World :=
  if w.tickGetMs tick - w.client.pingTickMs > pingIntervalMs w.client then sendPing tick w.read
  else w.read.goto .pongCheck

def pongCheck : World :=
  if w.tickGetMs tick - w.client.pingpongTickMs > pingpongTimeoutMs w.client ∧
    w.client.waitForPongResp = true
  then
    ((w.read.error (.noPong w.client.config.pingpongTimeoutSec)).abortConnection tick
      .pongTimeout).goto .unlocked
  else w.read.goto .select

/-- Into `esp_websocket_client_recv` if the last poll found something to read. -/
def select : World :=
  if w.readSelect = 0 then w.goto .unlocked
  else
    (w.update fun c =>
      { c with pingTickMs := w.tickGetMs tick, payloadOffset := 0 }).read.goto .receiving

def received : World :=
  match w.client.lastOpcode with
  | .ping =>
    let data := if w.client.payloadLen = 0 then [] else w.client.rxBuffer
    (w.emit (.control .pong data w.client.payloadLen)).goto .unlocked
  | .pong => (w.update fun c => { c with waitForPongResp := false }).goto .unlocked
  | .close => (w.update fun c => { c with state := .closing }).goto .unlocked
  | _ => w.goto .unlocked

/-- One pass of the `do` loop of `esp_websocket_client_recv`. -/
def recv : World :=
  let w := w.emit (.read a.rlen a.bytes a.payloadLen a.fin a.opcode)
  if a.rlen < 0 then
    ((w.error (.readFailed a.rlen)).abortConnection tick .tcpTransport).goto .unlocked
  else
    let w := w.update fun c =>
      { c with payloadLen := a.payloadLen, lastFin := a.fin, lastOpcode := a.opcode
               rxBuffer := WebsocketSend.memcpy c.rxBuffer a.bytes 0 a.rlen.toNat }
    if a.rlen = 0 ∧ a.opcode = .none then w.goto .unlocked
    else
      let w := w.dispatchEvent .data (w.client.rxBuffer.take a.rlen.toNat) a.rlen
      let w := w.update fun c => { c with payloadOffset := c.payloadOffset + a.rlen }
      if w.client.payloadOffset < w.client.payloadLen then w else received w

def wait : World :=
  match w.client.state with
  | .connected => w.goto .polling
  | .closing => if w.client.closeFrameSentBit = true then w.goto .closingWait else w.goto .loop
  | _ => w.goto .loop

/-- The poll returns; the connection may have been given up in the meantime. -/
def polled : World :=
  let w := { w.emit (.pollRead a.pollRead) with readSelect := a.pollRead }
  if a.pollRead < 0 then
    ((w.error (.pollFailed a.pollRead)).abortConnection tick .tcpTransport).goto .loop
  else w.goto .loop

/-- The wait for the server to close the connection. Both `break`s leave the loop. -/
def pollClosed : World :=
  let w := w.emit (.pollClosed a.pollClosed)
  if a.pollClosed = 0 then leave w
  else
    leave ((w.update fun c => { c with run := false, state := .unknow }).dispatchEvent .closed [] 0)

/-! The code behind the loop, in three steps. -/

def setStoppedBit : World := (w.update fun c => { c with stoppedBit := true }).goto .exiting

def endState : World := (w.update fun c => { c with state := .unknow }).goto .deleting

def finish : World :=
  if w.client.selectedForDestroying = true then (w.emit .destroyed).goto .destroyed
  else w.goto .ended

def taskStep : World :=
  match w.pc with
  | .loop => enter w
  | .locking => lock tick a w
  | .heartbeat => heartbeat tick w
  | .pongCheck => pongCheck tick w
  | .select => select tick w
  | .receiving => recv tick a w
  | .unlocked => wait w
  | .polling => polled tick a w
  | .closingWait => pollClosed a w
  | .stopping => setStoppedBit w
  | .exiting => endState w
  | .deleting => finish w
  | .ended => w
  | .destroyed => w

end

def successors : Pc → List Pc
  | .loop => [.locking, .stopping]
  | .locking => [.locking, .heartbeat, .select, .unlocked]
  | .heartbeat => [.pongCheck]
  | .pongCheck => [.select, .unlocked]
  | .select => [.receiving, .unlocked]
  | .receiving => [.receiving, .unlocked]
  | .unlocked => [.polling, .closingWait, .loop]
  | .polling => [.loop]
  | .closingWait => [.stopping]
  | .stopping => [.exiting]
  | .exiting => [.deleting]
  | .deleting => [.ended, .destroyed]
  | .ended => [.ended]
  | .destroyed => [.destroyed]

theorem taskStep_goes (tick : ℕ → ℕ) (a : Answers) (w : World) :
    (taskStep tick a w).pc ∈ successors w.pc := by
  unfold taskStep
  cases hpc : w.pc with
  | loop =>
    simp only [enter, leave]
    split <;> simp [successors]
  | locking =>
    simp only [lock, connect, reconnect, echoClose]
    repeat' split
    all_goals simp [successors, hpc]
  | heartbeat =>
    simp only [heartbeat, sendPing]
    repeat' split
    all_goals simp [successors]
  | pongCheck =>
    simp only [pongCheck]
    split <;> simp [successors]
  | select =>
    simp only [select]
    split <;> simp [successors]
  | receiving =>
    simp only [recv, received]
    repeat' split
    all_goals simp [successors, World.dispatchEvent, hpc]
  | unlocked =>
    simp only [wait]
    repeat' split
    all_goals simp [successors]
  | polling =>
    simp only [polled]
    split <;> simp [successors]
  | closingWait =>
    simp only [pollClosed, leave]
    split <;> simp [successors]
  | stopping => simp [setStoppedBit, successors]
  | exiting => simp [endState, successors]
  | deleting =>
    simp only [finish]
    split <;> simp [successors]
  | ended => simp [successors, hpc]
  | destroyed => simp [successors, hpc]

/-- The task comes to its end through `setStoppedBit`, and stays there. -/
theorem taskStep_said {tick : ℕ → ℕ} {a : Answers} {w : World} (h : w.pc ≠ .stopping) :
    (taskStep tick a w).pc.said = w.pc.said := by
  have hgoes := taskStep_goes tick a w
  have same : ∀ p : Pc, p ≠ .stopping → ∀ q ∈ successors p, q.said = p.said := by
    intro p
    cases p <;> decide
  exact same w.pc h _ hgoes

/-! ## The calls of other tasks -/

section

variable (tick : ℕ → ℕ) (w : World)

/-- The bytes at `data`, of which the caller promises at least `len`. -/
def passed (data : Option (List Byte)) (len : ℤ) : List Byte := (data.getD []).take len.toNat

/-- `esp_websocket_client_send_with_opcode` up to its loop. `locked` says whether the lock, if it
is free at all, was taken in time. -/
def send (opcode : Opcode) (data : Option (List Byte)) (len : ℤ) (locked : Bool) : World :=
  let bytes := passed data len
  if len < 0 ∨ data = none ∧ len > 0 then w.emit (.turnedAway opcode bytes)
  else if locked = false ∨ w.lockFree = false then w.emit (.turnedAway opcode bytes)
  else if w.client.state ≠ .connected then w.emit (.turnedAway opcode bytes)
  else if w.client.transport = false then w.emit (.turnedAway opcode bytes)
  else
    (w.emit (.sending opcode bytes)).setCall
      (some ⟨opcode, bytes, WebsocketSend.start bytes opcode w.client.txBuffer⟩)

/-- One pass of its loop, or its return. -/
def advance (k : Call) (wlen : ℤ) : World :=
  if k.loop.continues k.data then
    let h := k.loop.handing k.data w.client.bufferSize wlen
    let l := k.loop.next k.data w.client.bufferSize wlen
    let w := (w.emit (.frame h.opcode h.buffer h.needWrite h.wlen)).update fun c =>
      { c with txBuffer := l.txBuffer }
    match l.failure with
    | some ret =>
      (((w.error (.writeFailed ret)).abortConnection tick .tcpTransport).emit
        (.sent k.opcode k.data ret)).setCall none
    | none => w.setCall (some { k with loop := l })
  else (w.emit (.sent k.opcode k.data k.loop.widx)).setCall none

def callStep (wlen : ℤ) : World :=
  match w.call with
  | none => w
  | some k => advance tick w k wlen

def htons (code : ℤ) : List Byte :=
  [UInt8.ofNat (toUInt64 code / 256), UInt8.ofNat (toUInt64 code)]

def closeBody : Option (ℤ × List Byte) → List Byte
  | none => []
  | some (code, text) => htons code ++ text

/-- The close frame of `esp_websocket_client_close_with_optional_body`, called by another task.
It waits for the lock as long as it takes. -/
def close (body : Option (ℤ × List Byte)) : World :=
  if w.client.run = false ∨ w.lockFree = false then w
  else send w .close (some (closeBody body)) (closeBody body).length true

/-- Its next statement, outside the lock. -/
def setCloseFrameSent : World := w.update fun c => { c with closeFrameSentBit := true }

/-- `esp_websocket_client_stop`, and the end of a closing wait that takes too long. -/
def stop : World := w.update fun c => { c with run := false }

/-- Their last statement, behind the wait for `STOPPED_BIT`, which the task has set. -/
def setUnknow : World :=
  if w.pc.said = true then w.update fun c => { c with state := .unknow } else w

/-- The last statement of `esp_websocket_client_start`, which its task may overtake. -/
def clearBits : World :=
  w.update fun c => { c with stoppedBit := false, closeFrameSentBit := false }

def destroyOnExit : World := w.update fun c => { c with selectedForDestroying := true }

def setPingIntervalSec (pingIntervalSec : ℕ) : World :=
  w.update fun c => { c with config := { c.config with
    pingIntervalSec := if pingIntervalSec = 0 then WebsocketClient.pingIntervalSec
      else pingIntervalSec } }

end

inductive Event where
  | task (a : Answers)
  | send (opcode : Opcode) (data : Option (List Byte)) (len : ℤ) (locked : Bool)
  | callStep (wlen : ℤ)
  | close (body : Option (ℤ × List Byte))
  | setCloseFrameSent
  | stop
  | setUnknow
  | clearBits
  | destroyOnExit
  | setPingIntervalSec (pingIntervalSec : ℕ)

/-- A destroyed client is not followed any further: a call that is under way then goes on with
memory that was freed. -/
def next (tick : ℕ → ℕ) (w : World) (e : Event) : World :=
  if w.pc = .destroyed then w
  else
    match e with
    | .task a => taskStep tick a w
    | .send opcode data len locked => send w opcode data len locked
    | .callStep wlen => callStep tick w wlen
    | .close body => close w body
    | .setCloseFrameSent => setCloseFrameSent w
    | .stop => stop w
    | .setUnknow => setUnknow w
    | .clearBits => clearBits w
    | .destroyOnExit => destroyOnExit w
    | .setPingIntervalSec n => setPingIntervalSec w n

def isTask : Event → Bool
  | .task _ => true
  | _ => false

section

variable {tick : ℕ → ℕ} {w : World}

theorem send_fixed (opcode : Opcode) (data : Option (List Byte)) (len : ℤ) (locked : Bool) :
    (send w opcode data len locked).client = w.client := by
  simp only [send]
  repeat' split
  all_goals rfl

theorem send_place (opcode : Opcode) (data : Option (List Byte)) (len : ℤ) (locked : Bool) :
    (send w opcode data len locked).pc = w.pc := by
  simp only [send]
  repeat' split
  all_goals rfl

/-- The calls of other tasks leave the task where it is, do not start it again, and at most take
back that it has stopped. -/
theorem others_place {e : Event} (h : isTask e = false) :
    (next tick w e).pc = w.pc ∧
      (next tick w e).client.payloadOffset = w.client.payloadOffset ∧
      (w.client.run = false → (next tick w e).client.run = false) ∧
      ((next tick w e).client.stoppedBit = w.client.stoppedBit ∨
        e = .clearBits ∧ (next tick w e).client.stoppedBit = false) := by
  have still : ∀ {v : World}, v.pc = w.pc → v.client = w.client → v.pc = w.pc ∧
      v.client.payloadOffset = w.client.payloadOffset ∧
      (w.client.run = false → v.client.run = false) ∧
      (v.client.stoppedBit = w.client.stoppedBit ∨
        e = .clearBits ∧ v.client.stoppedBit = false) := by
    intro v hpc hclient
    rw [hclient]
    exact ⟨hpc, rfl, id, .inl rfl⟩
  unfold next
  split
  · exact ⟨rfl, rfl, id, .inl rfl⟩
  · cases e with
    | task a => cases h
    | send opcode data len locked => exact still (send_place ..) (send_fixed ..)
    | callStep wlen =>
      simp only [callStep, advance]
      repeat' split
      · exact ⟨rfl, rfl, id, .inl rfl⟩
      · obtain ⟨hpc, hoff, hrun, hstopped⟩ := World.abort_place (w := _) tick .tcpTransport
        exact ⟨hpc, hoff, fun h => hrun.trans h, .inl hstopped⟩
      · exact ⟨rfl, rfl, id, .inl rfl⟩
      · exact ⟨rfl, rfl, id, .inl rfl⟩
    | close body =>
      simp only [close]
      split
      · exact ⟨rfl, rfl, id, .inl rfl⟩
      · exact still (send_place ..) (send_fixed ..)
    | setCloseFrameSent => exact ⟨rfl, rfl, id, .inl rfl⟩
    | stop => exact ⟨rfl, rfl, fun _ => rfl, .inl rfl⟩
    | setUnknow =>
      simp only [setUnknow]
      split
      · exact ⟨rfl, rfl, id, .inl rfl⟩
      · exact ⟨rfl, rfl, id, .inl rfl⟩
    | clearBits => exact ⟨rfl, rfl, id, .inr ⟨rfl, rfl⟩⟩
    | destroyOnExit => exact ⟨rfl, rfl, id, .inl rfl⟩
    | setPingIntervalSec n => exact ⟨rfl, rfl, id, .inl rfl⟩

end

structure Startable (c : Client) : Prop where
  stopped : c.state.stopped = true
  buffer : 0 < c.bufferSize
  room : c.txBuffer.length = c.bufferSize

theorem initClient_startable (config : UserConfig) (rxBuffer txBuffer : List Byte)
    (reconnectTickMs pingTickMs : ℕ) (h : txBuffer.length = bufferSize config) :
    Startable (initClient config rxBuffer txBuffer reconnectTickMs pingTickMs) :=
  ⟨rfl, bufferSize_pos config, h⟩

def started (c : Client) (found : Bool) : World where
  client := { c with run := found, transport := found, state := .init, stoppedBit := false
                     closeFrameSentBit := false }
  pc := .loop
  readSelect := 0
  call := none
  ticks := 0
  trace := []

end WebsocketSession
