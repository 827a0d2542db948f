import RayzTarget.WebsocketClient
import RayzTarget.OwnedBlocks
import RayzTarget.EventRuns
import Mathlib.Data.Fintype.OfMap

/-! # The memory of a websocket client

What `esp_websocket_client_init` allocates, what `esp_websocket_client_set_uri` replaces and
`esp_websocket_client_destroy` releases. Whether an allocation is granted is decided at each call
site; the parser of URIs and the encoder are outside the sources. -/
namespace WebsocketMemory

open WebsocketClient OwnedBlocks EventRuns

abbrev Text := List Char

inductive Field where
  | uri
  | host
  | path
  | scheme
  | username
  | password
  | auth
  | subprotocol
  | userAgent
  | headers
  deriving DecidableEq

/-- They are freed in this order. -/
def Field.all : List Field :=
  [.host, .uri, .path, .scheme, .username, .password, .auth, .subprotocol, .userAgent, .headers]

theorem Field.mem_all (f : Field) : f ∈ Field.all := by cases f <;> decide

instance : Fintype Field := Fintype.ofList Field.all Field.mem_all

/-- The pointers in a client and its configuration, and two local ones. The list of transports
is left to its own component. -/
inductive Slot where
  | client
  | eventHandle
  | ifName
  | lock
  | config
  | field (f : Field)
  | txBuffer
  | rxBuffer
  | errormsgBuffer
  | statusBits
  | userInfo
  | digest
  deriving DecidableEq

def Slot.all : List Slot :=
  [.client, .eventHandle, .ifName, .lock, .config, .txBuffer, .rxBuffer, .errormsgBuffer,
    .statusBits, .userInfo, .digest] ++ Field.all.map .field

theorem Slot.mem_all (s : Slot) : s ∈ Slot.all := by
  cases s with
  | field f => exact List.mem_append_right _ (List.mem_map_of_mem (Field.mem_all f))
  | _ => exact List.mem_append_left _ (by decide)

instance : Fintype Slot := Fintype.ofList Slot.all Slot.mem_all

inductive Block where
  | object
  | text (t : Text)
  | buffer (size : ℕ)
  deriving DecidableEq

inductive Site where
  | client
  | eventHandle
  | ifName
  | lock
  | config
  | transportScheme
  /-- in `esp_websocket_client_set_uri` -/
  | uri (f : Field)
  | uriUserInfo
  /-- in `esp_websocket_client_set_config` -/
  | copy (f : Field)
  | authUserInfo
  | authDigest
  | defaultScheme
  | rxBuffer
  | txBuffer
  | statusBits
  | errormsgBuffer
  deriving DecidableEq

abbrev Grants := Site → Bool

inductive EspErr where
  | fail
  | noMem
  deriving DecidableEq

/-- The variable is `errormsg_size`. -/
abbrev Memory := Store Slot Block ℕ

abbrev Books := Account Slot Block ℕ

abbrev Action := Prog Slot Block ℕ EspErr

inductive Transport where
  | unknown
  | overTcp
  | overSsl
  deriving DecidableEq

structure InitConfig extends UserConfig where
  uri : Option Text
  host : Option Text
  username : Option Text
  password : Option Text
  path : Option Text
  subprotocol : Option Text
  userAgent : Option Text
  headers : Option Text
  transport : Transport
  ifName : Bool

structure UrlField where
  off : ℕ
  len : ℕ

structure ParsedUrl where
  schema : UrlField
  host : UrlField
  path : UrlField
  query : UrlField
  userinfo : UrlField

def wsOverTcpScheme : Text := ['w', 's']

def wsOverTlsScheme : Text := ['w', 's', 's']

def wsHttpBasicAuth : Text := ['B', 'a', 's', 'i', 'c', ' ']

/-! ## Single allocations -/

section

variable (granted : Bool) (s : Slot)

def alloc (v : Block) : Action Unit := if granted then acquire s v else clear s

/-- `asprintf(&s, ..)`. What it leaves in `s` when it fails is not laid down: the pointer is
kept, or set to null. -/
def asprintf (keeps : Bool) (t : Text) : Action Unit :=
  if granted then acquire s (.text t)
  else if keeps then pure ()
  else clear s

def memCheck : Action Unit := do
  if ← isNull s then throw (.failed .noMem)

def allocChecked (v : Block) : Action Unit := do
  alloc granted s v
  memCheck s

def printChecked (keeps : Bool) (t : Text) : Action Unit := do
  asprintf granted s keeps t
  memCheck s

def textAt : Action Text := do
  match ← read s with
  | some (.text t) => pure t
  | _ => throw .fault

end

/-! ## `esp_websocket_client_set_uri` -/

section

variable (uri : Text) (u : ParsedUrl)

def part (p : UrlField) : Text := (uri.drop p.off).take p.len

def urlScheme : Option Text := if u.schema.len ≠ 0 then some (part uri u.schema) else none

def urlHost : Option Text := if u.host.len ≠ 0 then some (part uri u.host) else none

def urlPath : Option Text :=
  if u.path.len ≠ 0 ∨ u.query.len ≠ 0 then
    if u.query.len = 0 then some (part uri u.path)
    else if u.path.len = 0 then some ('/' :: '?' :: part uri u.query)
    else some (part uri u.path ++ '?' :: part uri u.query)
  else none

def urlUserInfo : Option Text := if u.userinfo.len ≠ 0 then some (part uri u.userinfo) else none

end

def passwordOf (userInfo : Text) : Option Text :=
  (userInfo.dropWhile (· ≠ ':')).tail?

def usernameOf (userInfo : Text) : Text := userInfo.takeWhile (· ≠ ':')

section

variable (keeps : Bool) (g : Grants)

def printField (f : Field) : Option Text → Action Unit
  | none => pure ()
  | some t => do
    release (.field f)
    printChecked (g (.uri f)) (.field f) keeps t

def copyField (site : Field → Site) (f : Field) : Option Text → Action Unit
  | none => pure ()
  | some t => do
    release (.field f)
    allocChecked (g (site f)) (.field f) (.text t)

def setUserInfo : Option Text → Action Unit
  | none => pure ()
  | some info => withLocal .userInfo do
    allocChecked (g .uriUserInfo) .userInfo (.text info)
    copyField g .uri .password (passwordOf info)
    copyField g .uri .username (some (usernameOf info))
    release .userInfo

variable (parse : Text → Option ParsedUrl)

def setUri (uri : Text) : Action Unit :=
  match parse uri with
  | none => throw (.failed .fail)
  | some u => do
    printField keeps g .scheme (urlScheme uri u)
    printField keeps g .host (urlHost uri u)
    printField keeps g .path (urlPath uri u)
    setUserInfo g (urlUserInfo uri u)

/-! ## `esp_websocket_client_set_config` -/

variable (encode : Text → Text)

def httpAuthBasic : Action Unit := withLocal .userInfo do
  let username ← textAt (.field .username)
  let password ← textAt (.field .password)
  let userInfo := username ++ ':' :: password
  alloc (g .authUserInfo) .userInfo (.text userInfo)
  if ← isNull .userInfo then clear (.field .auth)
  else withLocal .digest do
    alloc (g .authDigest) .digest (.text (wsHttpBasicAuth ++ encode userInfo))
    release .userInfo
    move .digest (.field .auth)

def setAuth : Action Unit := do
  let noUsername ← isNull (.field .username)
  let noPassword ← isNull (.field .password)
  if noUsername || noPassword then pure ()
  else
    release (.field .auth)
    httpAuthBasic g encode
    memCheck (.field .auth)

/-- The host is not released before it is replaced. -/
def setHost : Option Text → Action Unit
  | none => pure ()
  | some t => allocChecked (g (.copy .host)) (.field .host) (.text t)

def setConfig (config : InitConfig) : Action Unit := do
  setHost g config.host
  copyField g .copy .username config.username
  copyField g .copy .password config.password
  setAuth g encode
  copyField g .copy .uri config.uri
  copyField g .copy .path config.path
  copyField g .copy .subprotocol config.subprotocol
  copyField g .copy .userAgent config.userAgent
  copyField g .copy .headers config.headers

/-! ## `esp_websocket_client_destroy` -/

def destroyConfig : Action Unit := do
  unless ← isNull .config do
    Field.all.forM fun f => release (.field f)
    Field.all.forM fun f => clear (.field f)
    release .config
    clear .config

/-- `destroy_and_free_resources`. `vQueueDelete` is not for a null pointer. -/
def destroy : Action Unit := do
  release .eventHandle
  release .ifName
  destroyConfig
  if ← isNull .lock then throw .fault
  release .lock
  release .txBuffer
  release .rxBuffer
  release .errormsgBuffer
  release .statusBits
  release .client

/-! ## `esp_websocket_client_init` -/

def setIfName (ifName : Bool) : Action Unit :=
  if ifName then allocChecked (g .ifName) .ifName .object else pure ()

def setTransport : Transport → Action Unit
  | .unknown => pure ()
  | .overTcp => printChecked (g .transportScheme) (.field .scheme) keeps wsOverTcpScheme
  | .overSsl => printChecked (g .transportScheme) (.field .scheme) keeps wsOverTlsScheme

def setInitialUri : Option Text → Action Unit
  | none => pure ()
  | some uri => setUri keeps g parse uri

def setDefaultScheme : Action Unit := do
  if ← isNull (.field .scheme) then
    printChecked (g .defaultScheme) (.field .scheme) keeps wsOverTcpScheme

def allocBuffers (size : ℕ) : Action Unit := do
  clear .errormsgBuffer
  setVars fun _ => 0
  allocChecked (g .rxBuffer) .rxBuffer (.buffer size)
  allocChecked (g .txBuffer) .txBuffer (.buffer size)
  allocChecked (g .statusBits) .statusBits .object

/-- From the event loop on, where a failure is `goto _websocket_init_fail`. -/
def setUp (config : InitConfig) : Action Unit := do
  setIfName g config.ifName
  allocChecked (g .lock) .lock .object
  allocChecked (g .config) .config .object
  setTransport keeps g config.transport
  setInitialUri keeps g parse config.uri
  setConfig g encode config
  setDefaultScheme keeps g
  allocBuffers g (bufferSize config.toUserConfig)

/-- Whether the client it returns is not null. -/
def init (config : InitConfig) : Action Bool :=
  if g .client then do
    acquire .client .object
    if g .eventHandle then do
      acquire .eventHandle .object
      recover (do setUp keeps g parse encode config; pure true) (do destroy; pure false)
    else do
      release .client
      pure false
  else pure false

/-! ## While there is a client -/

def growErrormsg (neededSize : ℕ) : Action Unit := do
  release .errormsgBuffer
  alloc (g .errormsgBuffer) .errormsgBuffer (.buffer neededSize)
  if ← isNull .errormsgBuffer then
    setVars fun _ => 0
    throw (.failed .noMem)
  else setVars fun _ => neededSize

/-- `vsnprintf` into the buffer, which must have the `errormsg_size` bytes it is told. -/
def printErrormsg : Action Unit := do
  let errormsgSize ← getVars
  match ← read .errormsgBuffer with
  | some (.buffer size) => if size < errormsgSize then throw .fault else pure ()
  | _ => throw .fault

def error (needed : ℕ) : Action Unit := do
  let errormsgSize ← getVars
  if needed + 1 > errormsgSize then
    growErrormsg g (needed + 1)
    printErrormsg
  else printErrormsg

end

inductive Call where
  | setUri (uri : Text) (g : Grants)
  | error (needed : ℕ) (g : Grants)

/-- A client that is not there any more, or never was, leaves its memory behind. -/
inductive Lifetime where
  | alive (m : Memory)
  | ended (m : Memory)
  | faulted

def Lifetime.isAlive : Lifetime → Bool
  | .alive _ => true
  | _ => false

section

variable (keeps : Bool) (parse : Text → Option ParsedUrl) (encode : Text → Text)

def perform : Call → Action Unit
  | .setUri uri g => setUri keeps g parse uri
  | .error needed g => error g needed

def created (config : InitConfig) (g : Grants) : Lifetime :=
  match init keeps g parse encode config (.empty 0) with
  | .ok true m => .alive m
  | .ok false m => .ended m
  | .error _ _ => .faulted

def next (l : Lifetime) (c : Call) : Lifetime :=
  match l with
  | .alive m =>
    match perform keeps parse c m with
    | .ok _ m' => .alive m'
    | .error (.failed _) m' => .alive m'
    | .error .fault _ => .faulted
  | l => l

def destroyed : Lifetime → Lifetime
  | .alive m =>
    match destroy m with
    | .ok _ m' => .ended m'
    | .error _ _ => .faulted
  | l => l

def lifetime (config : InitConfig) (g : Grants) (calls : List Call) : Lifetime :=
  destroyed (run (next keeps parse) (created keeps parse encode config g) calls)

end

end WebsocketMemory
