import RayzTarget.MessageFrames
import Mathlib.Algebra.Group.Nat.Defs

/-! # The websocket client

The state of `esp_websocket_client`, and what its functions do to the world around it: the
transport, the clock and the event handlers. The transport is outside the sources, so its answers
are inputs; what the client asks of it is recorded. -/
namespace WebsocketClient

abbrev Byte := UInt8

/-- `ws_transport_opcodes_t`, with the final-frame flag and the mark of a read without a frame. -/
inductive Opcode where
  | cont
  | text
  | binary
  | close
  | ping
  | pong
  | fin
  | none
  deriving DecidableEq, Repr

def Opcode.code : Opcode → UInt32
  | .cont => 0x00
  | .text => 0x01
  | .binary => 0x02
  | .close => 0x08
  | .ping => 0x09
  | .pong => 0x0a
  | .fin => 0x80
  | .none => 0x100

/-- The code as handlers receive it, in a `uint8_t` that has no room for the mark of a read
without a frame. -/
def Opcode.opCode (o : Opcode) : UInt8 := o.code.toUInt8

theorem Opcode.opCode_pong_iff {o : Opcode} : o.opCode = Opcode.pong.opCode ↔ o = .pong := by
  cases o <;> decide

def Opcode.Begins : Opcode → Prop
  | .cont | .fin | .none => False
  | _ => True

instance (o : Opcode) : Decidable o.Begins :=
  match o with
  | .cont | .fin | .none => .isFalse id
  | .text | .binary | .close | .ping | .pong => .isTrue trivial

inductive ClientState where
  | error
  | unknow
  | init
  | connected
  | waitTimeout
  | closing
  deriving DecidableEq, Repr

/-- `state < WEBSOCKET_STATE_INIT` -/
def ClientState.stopped : ClientState → Bool
  | .error | .unknow => true
  | _ => false

inductive ErrorType where
  | none
  | tcpTransport
  | pongTimeout
  | handshake
  deriving DecidableEq, Repr

inductive EventId where
  | error
  | connected
  | disconnected
  | data
  | closed
  | beforeConnect
  deriving DecidableEq, Repr

inductive Cause where
  | connectFailed (result : ℤ)
  | readFailed (rlen : ℤ)
  | pollFailed (result : ℤ)
  | writeFailed (wlen : ℤ)
  | noPong (timeoutSec : ℤ)
  deriving DecidableEq, Repr

structure UserConfig where
  disableAutoReconnect : Bool
  disablePingpongDiscon : Bool
  pingpongTimeoutSec : ℤ
  pingIntervalSec : ℕ
  reconnectTimeoutMs : ℤ
  bufferSize : ℤ

structure Config where
  autoReconnect : Bool
  pingpongTimeoutSec : ℤ
  pingIntervalSec : ℕ
  deriving DecidableEq

def bufferSizeByte : ℤ := 1024
def reconnectTimeoutMs : ℤ := 10 * 1000
def pingIntervalSec : ℕ := 10
def pingpongTimeoutSec : ℤ := 120

def setConfig (config : UserConfig) : Config where
  autoReconnect := !config.disableAutoReconnect
  pingpongTimeoutSec :=
    if config.disablePingpongDiscon then 0
    else if config.pingpongTimeoutSec ≠ 0 then config.pingpongTimeoutSec
    else WebsocketClient.pingpongTimeoutSec
  pingIntervalSec :=
    if config.pingIntervalSec = 0 then WebsocketClient.pingIntervalSec else config.pingIntervalSec

/-- `struct esp_websocket_client`. The microsecond timer counts in 64 bits from boot, so its
readings in milliseconds are plain numbers. -/
structure Client where
  config : Config
  state : ClientState
  /-- `client->transport` is not null. -/
  transport : Bool
  reconnectTickMs : ℕ
  pingTickMs : ℕ
  pingpongTickMs : ℕ
  waitTimeoutMs : ℤ
  run : Bool
  waitForPongResp : Bool
  selectedForDestroying : Bool
  stoppedBit : Bool
  closeFrameSentBit : Bool
  errorType : ErrorType
  wsHandshakeStatusCode : ℤ
  rxBuffer : List Byte
  txBuffer : List Byte
  bufferSize : ℕ
  lastFin : Bool
  lastOpcode : Opcode
  payloadLen : ℤ
  payloadOffset : ℤ
  deriving DecidableEq

def bufferSize (config : UserConfig) : ℕ :=
  if config.bufferSize ≤ 0 then bufferSizeByte.toNat else config.bufferSize.toNat

/-- The client of a successful `esp_websocket_client_init`. The buffers hold what `malloc` left in
them, the timers their two readings. -/
def initClient (config : UserConfig) (rxBuffer txBuffer : List Byte)
    (reconnectTickMs pingTickMs : ℕ) : Client where
  config := setConfig config
  state := .unknow
  transport := false
  reconnectTickMs := reconnectTickMs
  pingTickMs := pingTickMs
  pingpongTickMs := 0
  waitTimeoutMs :=
    if config.reconnectTimeoutMs ≤ 0 then WebsocketClient.reconnectTimeoutMs
    else config.reconnectTimeoutMs
  run := false
  waitForPongResp := false
  selectedForDestroying := false
  stoppedBit := false
  closeFrameSentBit := false
  errorType := .none
  wsHandshakeStatusCode := 0
  rxBuffer := rxBuffer
  txBuffer := txBuffer
  bufferSize := bufferSize config
  lastFin := false
  lastOpcode := .cont
  payloadLen := 0
  payloadOffset := 0

theorem bufferSize_pos (config : UserConfig) : 0 < bufferSize config := by
  unfold bufferSize
  split
  · decide
  · omega

structure EventData where
  event : EventId
  data : List Byte
  dataLen : ℤ
  fin : Bool
  opCode : UInt8
  payloadLen : ℤ
  payloadOffset : ℤ
  errorType : ErrorType
  wsHandshakeStatusCode : ℤ
  cause : Option Cause
  deriving DecidableEq

def eventData (c : Client) (event : EventId) (data : List Byte) (dataLen : ℤ)
    (cause : Option Cause) : EventData where
  event := event
  data := data
  dataLen := dataLen
  fin := c.lastFin
  opCode := c.lastOpcode.opCode
  payloadLen := c.payloadLen
  payloadOffset := c.payloadOffset
  errorType := c.errorType
  wsHandshakeStatusCode := c.wsHandshakeStatusCode
  cause := cause

/-- What the client does to the world. A buffer is passed with the length the callee may use. -/
inductive Effect where
  | dispatch (d : EventData)
  | connect (result : ℤ)
  | closeTransport
  /-- `esp_transport_ws_send_raw` by the task -/
  | control (opcode : Opcode) (buffer : List Byte) (len : ℤ)
  /-- A send call has the lock and finds a connection. -/
  | sending (opcode : Opcode) (data : List Byte)
  /-- `esp_transport_ws_send_raw` by that call -/
  | frame (word : UInt32) (buffer : List Byte) (len : ℕ) (wlen : ℤ)
  /-- That call returns. -/
  | sent (opcode : Opcode) (data : List Byte) (ret : ℤ)
  /-- A send call returns `ESP_FAIL` without sending. -/
  | turnedAway (opcode : Opcode) (data : List Byte)
  | read (rlen : ℤ) (bytes : List Byte) (payloadLen : ℤ) (fin : Bool) (opcode : Opcode)
  | pollRead (result : ℤ)
  | pollClosed (result : ℤ)
  | destroyed
  deriving DecidableEq

end WebsocketClient
