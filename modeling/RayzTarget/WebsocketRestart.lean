import RayzTarget.WebsocketWire
import RayzTarget.WebsocketMemory

/-! # Session after session

A client that is started again and again. `esp_websocket_client_start` looks at the state of the
client only; whether the last session is over is for its callers to know. -/
namespace WebsocketRestart

open WebsocketClient WebsocketWorld WebsocketSession WebsocketLifecycle WebsocketMoves WebsocketWire
  EventRuns TraceMonitor
open WebsocketMemory (Text EspErr wsOverTcpScheme wsOverTlsScheme)

/-- What the components answer that a start asks, and in the end the new task. -/
structure StartAnswers where
  listInit : Bool
  /-- `esp_transport_tcp_init` or `esp_transport_ssl_init` -/
  baseInit : Bool
  wsInit : Bool
  /-- `set_websocket_transport_optional_settings` is `ESP_OK`. -/
  optionalSettings : Bool
  taskCreated : Bool
  /-- The task finds its transport. -/
  found : Bool

def sameIgnoringCase (s t : Text) : Bool := s.map Char.toLower == t.map Char.toLower

/-- `esp_websocket_client_create_transport`, which lets go of the transports of the last session
unless there is no scheme. -/
def createTransport (scheme : Option Text) (a : StartAnswers) : Except EspErr Unit :=
  match scheme with
  | none => .error .fail
  | some s =>
    if a.listInit = false then .error .noMem
    else if sameIgnoringCase s wsOverTcpScheme || sameIgnoringCase s wsOverTlsScheme then
      if a.baseInit = false then .error .noMem
      else if a.wsInit = false then .error .noMem
      else if a.optionalSettings = false then .error .fail
      else .ok ()
    else .error .fail

inductive Starting where
  /-- In `esp_websocket_client_create_transport`, or on the way to `xTaskCreate`. -/
  | creating (scheme : Option Text) (a : StartAnswers)
  /-- The task has not run yet. It will find its transport or not. -/
  | launched (found : Bool)

/-- A client from its first start on. -/
structure Life where
  /-- The last session; before the first, a client whose task has ended. -/
  world : World
  starting : Option Starting
  /-- The starts that have yet to clear the bits. -/
  clearing : ℕ
  /-- The stops and closes that are past their wait and have yet to write the state. -/
  late : ℕ
  /-- The clock readings before the session. -/
  base : ℕ
  /-- The sessions before, and in front of them the time before the first start. -/
  past : List World
  /-- A start has gone on with a client in use, or a stop has overwritten the state of a session
  that it has not waited for. -/
  disturbed : Bool

def Life.free (l : Life) : Bool :=
  l.starting.isNone && decide (l.world.pc = .ended) && l.world.call.isNone

/-- `esp_websocket_client_start` up to `esp_websocket_client_create_transport`, which a client
with a scheme enters by letting go of its transports. -/
def Life.start (l : Life) (scheme : Option Text) (a : StartAnswers) : Life :=
  if l.world.client.state.stopped = false then l
  else if scheme.isNone = true then l
  else if l.free = false then { l with disturbed := true }
  else { l with starting := some (.creating scheme a) }

/-- The start comes to `xTaskCreate`, or gives up. -/
def Life.createTask (l : Life) : Life :=
  match l.starting with
  | some (.creating scheme a) =>
    match createTransport scheme a with
    | .error _ => { l with starting := none }
    | .ok () =>
      if a.taskCreated = true then
        { l with starting := some (.launched a.found), clearing := l.clearing + 1 }
      else { l with starting := none }
  | _ => l

def Life.begun (l : Life) (found : Bool) : Life :=
  { l with
    world := started l.world.client found
    starting := none
    base := l.base + l.world.ticks
    past := l.past ++ [l.world] }

inductive LifeEvent where
  | start (scheme : Option Text) (a : StartAnswers)
  | createTask
  /-- A stop or a close has waited for `STOPPED_BIT`. -/
  | resume
  | session (e : Event)

def Life.step (tick : ℕ → ℕ) (l : Life) (e : Event) : Life :=
  { l with world := WebsocketSession.next (fun n => tick (l.base + n)) l.world e }

/-- A client that was destroyed, or a session that was disturbed, is not followed any further. -/
def Life.next (tick : ℕ → ℕ) (l : Life) (e : LifeEvent) : Life :=
  if l.disturbed = true ∨ l.world.pc = .destroyed then l
  else
    match e with
    | .start scheme a => l.start scheme a
    | .createTask => l.createTask
    | .resume => if l.world.client.stoppedBit = true then { l with late := l.late + 1 } else l
    | .session (.task a) =>
      match l.starting with
      | some (.launched found) => l.begun found
      | _ => l.step tick (.task a)
    | .session .setUnknow =>
      if l.late = 0 then l
      else if l.world.pc.said = false then { l with disturbed := true }
      else { l.step tick .setUnknow with late := l.late - 1 }
    | .session .clearBits =>
      if l.clearing = 0 then l
      else { l.step tick .clearBits with clearing := l.clearing - 1 }
    | .session e => l.step tick e

def unstarted (c : Client) : Life where
  world := { client := c, pc := .ended, readSelect := 0, call := none, ticks := 0, trace := [] }
  starting := none
  clearing := 0
  late := 0
  base := 0
  past := []
  disturbed := false

def Life.sessions (l : Life) : List World :=
  match l.past with
  | [] => []
  | _ :: past => past ++ [l.world]

variable {tick : ℕ → ℕ} {w : World} {l : Life} {c c₀ : Client} {scheme : Option Text}
  {a : StartAnswers}

/-! ## Sessions apart -/

structure Orderly (l : Life) : Prop where
  tracked : Tracked l.world
  starting : l.starting.isSome = true → l.world.pc = .ended ∧ l.world.call = none

/-- A state in which the client passes for stopped and is not free. -/
def Life.Early (l : Life) : Prop :=
  l.starting.isSome = true ∨ (l.world.pc = .ended ∧ l.world.call.isSome = true) ∨
    ((l.world.pc = .stopping ∨ l.world.pc = .exiting ∨ l.world.pc = .deleting) ∧
      l.world.client.state.stopped = true)

/-- A start that comes too early, or the last write of a stop or a close that comes too late. -/
def Life.Untimely (l : Life) : LifeEvent → Prop
  | .start scheme _ => scheme.isSome = true ∧ l.world.pc ≠ .destroyed ∧ l.Early
  | .session .setUnknow => l.late ≠ 0 ∧ l.world.pc.said = false
  | _ => False

/-- As long as the task is in its loop, the state tells it. -/
theorem out_of_loop (h : Tracked w) (hs : w.client.state.stopped = true) :
    (w.pc = .stopping ∨ w.pc = .exiting ∨ w.pc = .deleting) ∨ w.pc = .ended ∨
      w.pc = .destroyed := by
  obtain ⟨p, -, hstands⟩ := h
  have hstate : ∀ {s : ClientState}, w.client.state = s → s.stopped = true := by
    intro s hw
    rwa [hw] at hs
  unfold Stands at hstands
  cases hpc : w.pc with
  | stopping => exact .inl (.inl rfl)
  | exiting => exact .inl (.inr (.inl rfl))
  | deleting => exact .inl (.inr (.inr rfl))
  | ended => exact .inr (.inl rfl)
  | destroyed => exact .inr (.inr rfl)
  | loop | locking | unlocked =>
    rw [hpc] at hstands
    rw [hstands.2.1] at hs
    cases hs
  | heartbeat | pongCheck | select | receiving | closingWait =>
    rw [hpc] at hstands
    cases hstate hstands.2.1
  | polling =>
    rw [hpc] at hstands
    rcases hstands.2 with hw | hw
    · cases hstate hw
    · cases hstate hw

theorem ended_stopped (h : Tracked w) (hpc : w.pc = .ended) : w.client.state = .unknow := by
  obtain ⟨p, -, hstands⟩ := h
  rw [Stands, hpc] at hstands
  exact hstands.2

theorem Orderly.early_iff (h : Orderly l) (hpc : l.world.pc ≠ .destroyed) :
    l.Early ↔ l.world.client.state.stopped = true ∧ l.free = false := by
  constructor
  · rintro (hstarting | ⟨hended, hcall⟩ | ⟨hleaving, hstopped⟩)
    · obtain ⟨hended, -⟩ := h.starting hstarting
      rw [ended_stopped h.tracked hended]
      exact ⟨rfl, by simp [Life.free, Option.isNone_eq_false_iff.mpr hstarting]⟩
    · rw [ended_stopped h.tracked hended]
      exact ⟨rfl, by simp [Life.free, Option.isNone_eq_false_iff.mpr hcall]⟩
    · have hnot : l.world.pc ≠ .ended := by
        rcases hleaving with hw | hw | hw <;> rw [hw] <;> decide
      exact ⟨hstopped, by simp [Life.free, hnot]⟩
  · rintro ⟨hstopped, hfree⟩
    rcases out_of_loop h.tracked hstopped with hw | hw | hw
    · exact .inr (.inr ⟨hw, hstopped⟩)
    · cases hstarting : l.starting with
      | some s => exact .inl (by rw [hstarting]; rfl)
      | none =>
        refine .inr (.inl ⟨hw, ?_⟩)
        simpa [Life.free, hstarting, hw] using hfree
    · exact absurd hw hpc

/-- Between two sessions the calls of other tasks leave the task and the lock alone. -/
theorem ended_next (h : Tracked w) (hpc : w.pc = .ended) (hcall : w.call = none) (e : Event) :
    (next tick w e).pc = .ended ∧ (next tick w e).call = none := by
  have hstate := ended_stopped h hpc
  have hsend : ∀ opcode data len locked, (send w opcode data len locked).pc = .ended ∧
      (send w opcode data len locked).call = none := by
    intro opcode data len locked
    refine ⟨(send_place ..).trans hpc, ?_⟩
    simp only [send, hstate]
    repeat' split
    · exact hcall
    · exact hcall
    · exact hcall
    · contradiction
    · contradiction
  unfold next
  rw [if_neg (by rw [hpc]; decide)]
  cases e with
  | task a =>
    have hstill : taskStep tick a w = w := by simp only [taskStep, hpc]
    exact ⟨(congrArg World.pc hstill).trans hpc, (congrArg World.call hstill).trans hcall⟩
  | send opcode data len locked => exact hsend ..
  | callStep wlen =>
    have hstill : callStep tick w wlen = w := by simp only [callStep, hcall]
    exact ⟨(congrArg World.pc hstill).trans hpc, (congrArg World.call hstill).trans hcall⟩
  | close body =>
    simp only [close]
    split
    · exact ⟨hpc, hcall⟩
    · exact hsend ..
  | setUnknow =>
    simp only [setUnknow]
    split <;> exact ⟨hpc, hcall⟩
  | setCloseFrameSent => exact ⟨hpc, hcall⟩
  | stop => exact ⟨hpc, hcall⟩
  | clearBits => exact ⟨hpc, hcall⟩
  | destroyOnExit => exact ⟨hpc, hcall⟩
  | setPingIntervalSec n => exact ⟨hpc, hcall⟩

structure Stays (l m : Life) : Prop where
  base : m.base = l.base
  past : m.past = l.past
  starting : m.starting.isSome = true → l.starting.isSome = true ∨ l.free = true

theorem Stays.refl (l : Life) : Stays l l := ⟨rfl, rfl, .inl⟩

theorem start_stays (l : Life) (scheme : Option Text) (a : StartAnswers) :
    (l.start scheme a).world = l.world ∧ Stays l (l.start scheme a) := by
  unfold Life.start
  split
  · exact ⟨rfl, .refl l⟩
  · split
    · exact ⟨rfl, .refl l⟩
    · split
      · exact ⟨rfl, rfl, rfl, .inl⟩
      · rename_i hfree
        exact ⟨rfl, rfl, rfl, fun _ => .inr (Bool.of_not_eq_false hfree)⟩

theorem createTask_stays (l : Life) : l.createTask.world = l.world ∧ Stays l l.createTask := by
  unfold Life.createTask
  split
  · rename_i hstarting
    have hsome : l.starting.isSome = true := by rw [hstarting]; rfl
    split
    · exact ⟨rfl, rfl, rfl, nofun⟩
    · split
      · exact ⟨rfl, rfl, rfl, fun _ => .inl hsome⟩
      · exact ⟨rfl, rfl, rfl, nofun⟩
  · exact ⟨rfl, .refl l⟩

theorem step_stays (tick : ℕ → ℕ) (l : Life) (e : Event) :
    (l.step tick e).world = next (fun n => tick (l.base + n)) l.world e ∧ Stays l (l.step tick e) :=
  ⟨rfl, rfl, rfl, .inl⟩

/-- A step leaves the session, begins the session of a task that was launched, or is a step of the
session. -/
theorem next_cases (tick : ℕ → ℕ) (l : Life) (e : LifeEvent) :
    ((l.next tick e).world = l.world ∧ Stays l (l.next tick e)) ∨
      (∃ found, l.starting = some (.launched found) ∧ l.next tick e = l.begun found) ∨
      ∃ e', (l.next tick e).world = next (fun n => tick (l.base + n)) l.world e' ∧
        Stays l (l.next tick e) := by
  unfold Life.next
  split
  · exact .inl ⟨rfl, .refl l⟩
  · cases e with
    | start scheme a => exact .inl (start_stays l scheme a)
    | createTask => exact .inl (createTask_stays l)
    | resume =>
      left
      simp only
      split
      · exact ⟨rfl, rfl, rfl, .inl⟩
      · exact ⟨rfl, .refl l⟩
    | session e =>
      cases e with
      | task a =>
        right
        simp only
        split
        · rename_i found hlaunched
          exact .inl ⟨found, hlaunched, rfl⟩
        · exact .inr ⟨.task a, step_stays tick l _⟩
      | setUnknow =>
        simp only
        split
        · exact .inl ⟨rfl, .refl l⟩
        · split
          · exact .inl ⟨rfl, rfl, rfl, .inl⟩
          · exact .inr (.inr ⟨.setUnknow, rfl, rfl, rfl, .inl⟩)
      | clearBits =>
        simp only
        split
        · exact .inl ⟨rfl, .refl l⟩
        · exact .inr (.inr ⟨.clearBits, rfl, rfl, rfl, .inl⟩)
      | _ => exact .inr (.inr ⟨_, step_stays tick l _⟩)

theorem orderly_next (h : Orderly l) (e : LifeEvent) : Orderly (l.next tick e) := by
  have hclaimed : ∀ {m : Life}, Stays l m → m.starting.isSome = true →
      l.world.pc = .ended ∧ l.world.call = none := by
    intro m hstays hstarting
    rcases hstays.starting hstarting with hbefore | hfree
    · exact h.starting hbefore
    · simp only [Life.free, Bool.and_eq_true, decide_eq_true_eq, Option.isNone_iff_eq_none]
        at hfree
      exact ⟨hfree.1.2, hfree.2⟩
  rcases next_cases tick l e with ⟨hworld, hstays⟩ | ⟨found, -, heq⟩ | ⟨e', hworld, hstays⟩
  · refine ⟨hworld ▸ h.tracked, ?_⟩
    rw [hworld]
    exact hclaimed hstays
  · rw [heq]
    exact ⟨started_tracked l.world.client found, nofun⟩
  · refine ⟨hworld ▸ next_tracked h.tracked e', ?_⟩
    rw [hworld]
    intro hstarting
    obtain ⟨hpc, hcall⟩ := hclaimed hstays hstarting
    exact ended_next h.tracked hpc hcall e'

theorem unstarted_orderly (hc : c.state = .unknow) : Orderly (unstarted c) :=
  ⟨⟨.offline, rfl, .inr rfl, hc⟩, nofun⟩

theorem orderly_run (hc : c.state = .unknow) (es : List LifeEvent) :
    Orderly (run (Life.next tick) (unstarted c) es) :=
  run_invariant (Life.next tick) Orderly (unstarted_orderly hc) (fun _ e h => orderly_next h e) es

theorem start_disturbed (h : Orderly l) (hpc : l.world.pc ≠ .destroyed) :
    (l.start scheme a).disturbed = true ↔
      l.disturbed = true ∨ l.Untimely (.start scheme a) := by
  have hstart : l.Untimely (.start scheme a) ↔ scheme.isSome = true ∧
      l.world.client.state.stopped = true ∧ l.free = false := by
    rw [Life.Untimely, h.early_iff hpc]
    exact and_congr_right fun _ => and_iff_right hpc
  rw [hstart]
  unfold Life.start
  split
  · rename_i hs
    simp [hs]
  · split
    · rename_i hn
      simp [Option.isNone_iff_eq_none.mp hn]
    · rename_i hs hn
      split
      · rename_i hfree
        have hsome : scheme.isSome = true := by
          simpa [← Option.isSome_iff_ne_none] using hn
        exact ⟨fun _ => .inr ⟨hsome, Bool.of_not_eq_false hs, hfree⟩, fun _ => rfl⟩
      · rename_i hfree
        simp [hfree]

/-- One step on. -/
theorem disturbed_next (h : Orderly l) (e : LifeEvent) :
    (l.next tick e).disturbed = true ↔ l.disturbed = true ∨ l.Untimely e := by
  unfold Life.next
  split
  · rename_i hover
    rcases hover with hd | hpc
    · simp [hd]
    · have hnot : ¬ l.Untimely e := by
        unfold Life.Untimely
        split
        · exact fun hu => hu.2.1 hpc
        · rw [hpc]
          exact fun hu => by cases hu.2
        · exact id
      rw [or_iff_left hnot]
  · rename_i hover
    have hpc : l.world.pc ≠ .destroyed := fun hd => hover (.inr hd)
    cases e with
    | start scheme a => exact start_disturbed h hpc
    | createTask =>
      have hsame : l.createTask.disturbed = l.disturbed := by
        unfold Life.createTask
        repeat' split
        all_goals rfl
      simp [hsame, Life.Untimely]
    | resume =>
      simp only [Life.Untimely, or_false]
      split <;> rfl
    | session e =>
      cases e with
      | task a =>
        simp only [Life.Untimely, or_false]
        split <;> rfl
      | setUnknow =>
        simp only [Life.Untimely]
        split
        · rename_i hnone
          simp [hnone]
        · rename_i hlate
          split
          · rename_i hsaid
            exact ⟨fun _ => .inr ⟨hlate, hsaid⟩, fun _ => rfl⟩
          · rename_i hsaid
            simp [Life.step, hsaid]
      | clearBits =>
        simp only [Life.Untimely, or_false]
        split <;> rfl
      | _ => exact (or_iff_left id).symm

/-- A stop that comes back from its wait when the next session is on already. -/
example :
    let starts : List LifeEvent := [.start (some ['W', 'S']) ⟨true, true, true, true, true, true⟩,
      .createTask, .session .clearBits, .session (.task .silent)]
    let stops : List LifeEvent := .session .stop :: List.replicate 4 (.session (.task .silent))
    (run (Life.next fun _ => 0)
      (unstarted (initClient ⟨false, false, 0, 0, 0, 2⟩ [0, 0] [0, 0] 0 0))
      (starts ++ stops ++ .resume :: starts ++ [.session .setUnknow])).disturbed = true := by
  decide +kernel

/-! ## Every session -/

structure Roomy (w : World) : Prop where
  buffer : 0 < w.client.bufferSize
  room : w.client.txBuffer.length = w.client.bufferSize
  sending : ∀ k, w.call = some k → WebsocketSend.Sending k.data w.client.bufferSize k.loop

theorem roomy_next (h : Roomy w) (ht : Tracked w) (e : Event) : Roomy (next tick w e) := by
  have hsize := (@next_fixed tick w e).bufferSize
  have hroom : (next tick w e).client.txBuffer.length = w.client.bufferSize := by
    rcases @next_txBuffer tick w e with heq | ⟨k, wlen, hk, hcont, heq⟩
    · rw [heq]
      exact h.room
    · rw [heq]
      exact (WebsocketSend.sending_next (h.sending k hk) hcont).room
  have hmove := @next_moves tick w ht e
  generalize next tick w e = v at *
  refine ⟨hsize ▸ h.buffer, hroom.trans hsize.symm, ?_⟩
  rw [hsize]
  have hnone : v.call = none → ∀ k, v.call = some k →
      WebsocketSend.Sending k.data w.client.bufferSize k.loop := by
    intro hcall k hk
    rw [hcall] at hk
    cases hk
  cases hmove with
  | quiet added htrace hticks hpong hcall hstate => exact hcall ▸ h.sending
  | lost added hstate htrace hlost hpong hcall => exact hcall ▸ h.sending
  | retry hstate hauto hdue htrace hticks hpong hinit hfree hcall => exact hnone hcall
  | opened d d' result hstate hr htrace hd hd' hticks hconnected hpong hfree hcall =>
    exact hnone hcall
  | refused d result added hstate hr htrace hd hadded hlost hpong hfree hcall =>
    exact hnone hcall
  | overdue d added hstate hwait hlate htrace hadded hlost hpong hfree hcall =>
    exact hnone hcall
  | ping hstate hconnected htrace hticks hpong hfree hcall => exact hnone hcall
  | echo hstate hsame htrace hticks hpong hfree hcall => exact hnone hcall
  | recv a hpc hstate hfree heq =>
    obtain ⟨-, -, -, hcall⟩ := @recv_calm tick w a hstate hfree
    rw [← heq] at hcall
    exact hnone (hcall.trans hfree)
  | begun opcode data len hstate hfree heq =>
    subst heq
    rintro k ⟨⟩
    exact WebsocketSend.sending_start opcode h.room
  | passed k wlen hk hcont hdone htrace hticks hstate hsince hpong hcall =>
    rw [hcall]
    rintro _ ⟨⟩
    exact WebsocketSend.sending_next (h.sending k hk) hcont
  | broken k wlen ret added hk hcont hfailed htrace hadded hlost hpong hcall =>
    exact hnone hcall
  | returned k hk hcont heq =>
    subst heq
    exact hnone rfl

/-- A session of the client that was `c₀` at first, as far as it has come. -/
def IsSession (tick : ℕ → ℕ) (c₀ : Client) (base : ℕ) (w : World) : Prop :=
  ∃ c found es, Startable c ∧ Fixed c₀ c ∧
    w = run (next fun n => tick (base + n)) (started c found) es

structure Kept (tick : ℕ → ℕ) (c₀ : Client) (l : Life) : Prop where
  orderly : Orderly l
  roomy : Roomy l.world
  fixed : Fixed c₀ l.world.client
  current : l.past ≠ [] → IsSession tick c₀ l.base l.world
  before : ∀ w ∈ l.past.tail, ∃ base, IsSession tick c₀ base w

theorem Kept.begun (h : Kept tick c₀ l) {found : Bool}
    (hl : l.starting = some (.launched found)) : Kept tick c₀ (l.begun found) := by
  obtain ⟨hpc, hcall⟩ := h.orderly.starting (by rw [hl]; rfl)
  have hstartable : Startable l.world.client := by
    refine ⟨?_, h.roomy.buffer, h.roomy.room⟩
    rw [ended_stopped h.orderly.tracked hpc]
    rfl
  constructor
  · exact ⟨started_tracked l.world.client found, nofun⟩
  · exact ⟨h.roomy.buffer, h.roomy.room, nofun⟩
  · exact ⟨h.fixed.1, h.fixed.2, h.fixed.3, h.fixed.4⟩
  · intro _
    exact ⟨l.world.client, found, [], hstartable, h.fixed, rfl⟩
  · intro w hw
    rcases eq_or_ne l.past [] with hnil | hne
    · simp [Life.begun, hnil] at hw
    · simp only [Life.begun, List.tail_append_of_ne_nil hne, List.mem_append,
        List.mem_singleton] at hw
      rcases hw with hw | rfl
      · exact h.before w hw
      · exact ⟨l.base, h.current hne⟩

theorem kept_next (h : Kept tick c₀ l) (e : LifeEvent) : Kept tick c₀ (l.next tick e) := by
  have horderly : Orderly (l.next tick e) := orderly_next h.orderly e
  rcases next_cases tick l e with ⟨hworld, hstays⟩ | ⟨found, hl, heq⟩ | ⟨e', hworld, hstays⟩
  · refine ⟨horderly, hworld ▸ h.roomy, hworld ▸ h.fixed, ?_, hstays.past ▸ h.before⟩
    rw [hworld, hstays.base, hstays.past]
    exact h.current
  · rw [heq]
    exact h.begun hl
  · refine ⟨horderly, ?_, ?_, ?_, hstays.past ▸ h.before⟩
    · rw [hworld]
      exact roomy_next h.roomy h.orderly.tracked e'
    · rw [hworld]
      exact h.fixed.trans (next_fixed e')
    · rw [hworld, hstays.base, hstays.past]
      intro hne
      obtain ⟨c, found, es, hc, hfixed, hw⟩ := h.current hne
      refine ⟨c, found, es ++ [e'], hc, hfixed, ?_⟩
      rw [run_snoc, ← hw]

/-- Every session of a life begins like a session of its own, with the buffers and the timeouts of
the first. -/
theorem sessions_kept (hc : c.state = .unknow) (hbuffer : 0 < c.bufferSize)
    (hroom : c.txBuffer.length = c.bufferSize) (es : List LifeEvent) :
    ∀ w ∈ (run (Life.next tick) (unstarted c) es).sessions, ∃ base, IsSession tick c base w := by
  have hstart : Kept tick c (unstarted c) := by
    constructor
    · exact unstarted_orderly hc
    · refine ⟨hbuffer, hroom, ?_⟩
      intro k hk
      cases hk
    · exact .refl c
    · intro hne
      exact absurd rfl hne
    · intro w hw
      cases hw
  have hkept : Kept tick c (run (Life.next tick) (unstarted c) es) :=
    run_invariant (Life.next tick) (Kept tick c) hstart (fun _ e h => kept_next h e) es
  intro w hw
  unfold Life.sessions at hw
  split at hw
  · cases hw
  · rename_i first past hpast
    rcases List.mem_append.mp hw with hw | hw
    · exact hkept.before w (by rwa [hpast])
    · rw [List.mem_singleton.mp hw]
      exact ⟨_, hkept.current (by rw [hpast]; exact List.cons_ne_nil _ _)⟩

end WebsocketRestart
