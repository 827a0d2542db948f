import RayzTarget.WebsocketSend

/-! # The world of a websocket session

The client with its task and the send call under way, the clock, and the trace of effects. The
lock is held by the task from the `switch` to its end, or by one call; the rest runs unlocked. -/
namespace WebsocketWorld

open WebsocketClient

/-- Where the client's task stands between two steps. -/
inductive Pc where
  | loop
  /-- In the loop again, and waiting for the lock. -/
  | locking
  | heartbeat
  | pongCheck
  | select
  | receiving
  | unlocked
  /-- In `esp_transport_poll_read`. -/
  | polling
  /-- In `esp_transport_ws_poll_connection_closed`. -/
  | closingWait
  /-- Behind the loop, the transport closed. -/
  | stopping
  /-- Behind `STOPPED_BIT`. -/
  | exiting
  /-- Behind the last write of the state. -/
  | deleting
  | ended
  | destroyed
  deriving DecidableEq, Repr

def Pc.locked : Pc → Bool
  | .heartbeat | .pongCheck | .select | .receiving => true
  | _ => false

/-- In the loop without the lock and outside the polls. -/
def Pc.looping : Pc → Bool
  | .loop | .locking | .unlocked => true
  | _ => false

/-- The task has said that it has stopped. -/
def Pc.said : Pc → Bool
  | .exiting | .deleting | .ended | .destroyed => true
  | _ => false

structure Call where
  opcode : Opcode
  data : List Byte
  loop : WebsocketSend.Loop
  deriving DecidableEq

/-- An effect is stamped with the number of clock readings made before it. -/
structure World where
  client : Client
  pc : Pc
  readSelect : ℤ
  call : Option Call
  ticks : ℕ
  trace : List (ℕ × Effect)
  deriving DecidableEq

def effects (w : World) : List Effect := w.trace.map Prod.snd

theorem effects_append {w v : World} {added : List (ℕ × Effect)} (h : v.trace = w.trace ++ added) :
    effects v = effects w ++ added.map Prod.snd := by
  rw [effects, h, List.map_append]
  rfl

namespace World

variable (w : World)

def emit (e : Effect) : World := { w with trace := w.trace ++ [(w.ticks, e)] }

def update (f : Client → Client) : World := { w with client := f w.client }

def goto (pc : Pc) : World := { w with pc := pc }

def setCall (call : Option Call) : World := { w with call := call }

def read : World := { w with ticks := w.ticks + 1 }

def lockFree : Bool := !w.pc.locked && w.call.isNone

def dispatchEvent (event : EventId) (data : List Byte) (dataLen : ℤ) : World :=
  w.emit (.dispatch (eventData w.client event data dataLen none))

/-- `esp_websocket_client_error`, whose data is the text about the cause -/
def error (cause : Cause) : World :=
  w.emit (.dispatch (eventData w.client .error [] 0 (some cause)))

/-- `_tick_get_ms()`: the reading, which `read` counts. -/
def tickGetMs (tick : ℕ → ℕ) : ℕ := tick w.ticks

def abortConnection (tick : ℕ → ℕ) (errorType : ErrorType) : World :=
  if w.client.state.stopped then w
  else
    let w := w.emit .closeTransport
    let w :=
      if w.client.config.autoReconnect then
        (w.update fun c => { c with reconnectTickMs := w.tickGetMs tick }).read
      else w
    let w := w.update fun c => { c with errorType := errorType, state := .waitTimeout }
    w.dispatchEvent .disconnected [] 0

/-! What the primitives leave alone, and what they add to the trace. -/

variable {w} {e : Effect} {f : Client → Client} {p : Pc} {k : Option Call}

@[simp] theorem emit_client : (w.emit e).client = w.client := rfl
@[simp] theorem emit_pc : (w.emit e).pc = w.pc := rfl
@[simp] theorem emit_call : (w.emit e).call = w.call := rfl
@[simp] theorem emit_ticks : (w.emit e).ticks = w.ticks := rfl
@[simp] theorem emit_trace : (w.emit e).trace = w.trace ++ [(w.ticks, e)] := rfl
@[simp] theorem update_client : (w.update f).client = f w.client := rfl
@[simp] theorem update_pc : (w.update f).pc = w.pc := rfl
@[simp] theorem update_call : (w.update f).call = w.call := rfl
@[simp] theorem update_ticks : (w.update f).ticks = w.ticks := rfl
@[simp] theorem update_trace : (w.update f).trace = w.trace := rfl
@[simp] theorem goto_client : (w.goto p).client = w.client := rfl
@[simp] theorem goto_pc : (w.goto p).pc = p := rfl
@[simp] theorem goto_call : (w.goto p).call = w.call := rfl
@[simp] theorem goto_ticks : (w.goto p).ticks = w.ticks := rfl
@[simp] theorem goto_trace : (w.goto p).trace = w.trace := rfl
@[simp] theorem setCall_client : (w.setCall k).client = w.client := rfl
@[simp] theorem setCall_pc : (w.setCall k).pc = w.pc := rfl
@[simp] theorem setCall_call : (w.setCall k).call = k := rfl
@[simp] theorem setCall_ticks : (w.setCall k).ticks = w.ticks := rfl
@[simp] theorem setCall_trace : (w.setCall k).trace = w.trace := rfl
@[simp] theorem read_client : w.read.client = w.client := rfl
@[simp] theorem read_pc : w.read.pc = w.pc := rfl
@[simp] theorem read_call : w.read.call = w.call := rfl
@[simp] theorem read_ticks : w.read.ticks = w.ticks + 1 := rfl
@[simp] theorem read_trace : w.read.trace = w.trace := rfl

/-- The whole of an aborted connection: the transport is closed, the handlers are told, and
the time is noted if the client reconnects by itself. -/
theorem abort_spec (tick : ℕ → ℕ) (errorType : ErrorType)
    (h : w.client.state.stopped = false) :
    ∃ c n, c = { w.client with errorType := errorType, state := .waitTimeout
                               reconnectTickMs := c.reconnectTickMs } ∧
      w.abortConnection tick errorType =
        { w with client := c, ticks := n, trace := w.trace ++
          [(w.ticks, .closeTransport), (n, .dispatch (eventData c .disconnected [] 0 none))] } ∧
      (w.client.config.autoReconnect = true ∧ n = w.ticks + 1 ∧
          c.reconnectTickMs = tick w.ticks ∨
        w.client.config.autoReconnect = false ∧ n = w.ticks) := by
  cases ha : w.client.config.autoReconnect with
  | true =>
    refine ⟨{ w.client with errorType := errorType, state := .waitTimeout
                            reconnectTickMs := tick w.ticks }, w.ticks + 1, rfl, ?_,
      Or.inl ⟨rfl, rfl, rfl⟩⟩
    simp [abortConnection, h, ha, tickGetMs, dispatchEvent, emit, update, read]
  | false =>
    refine ⟨{ w.client with errorType := errorType, state := .waitTimeout }, w.ticks, rfl, ?_,
      Or.inr ⟨rfl, rfl⟩⟩
    simp [abortConnection, h, ha, dispatchEvent, emit, update]

/-- It leaves the task where it is, in which frame it is, and whether it is to stop. -/
theorem abort_place (tick : ℕ → ℕ) (errorType : ErrorType) :
    (w.abortConnection tick errorType).pc = w.pc ∧
      (w.abortConnection tick errorType).client.payloadOffset = w.client.payloadOffset ∧
      (w.abortConnection tick errorType).client.run = w.client.run ∧
      (w.abortConnection tick errorType).client.stoppedBit = w.client.stoppedBit := by
  simp only [abortConnection]
  repeat' split
  all_goals exact ⟨rfl, rfl, rfl, rfl⟩

theorem abort_stopped (tick : ℕ → ℕ) (errorType : ErrorType)
    (h : w.client.state.stopped = true) : w.abortConnection tick errorType = w := if_pos h

end World

end WebsocketWorld
