import Mathlib.Data.Fin.VecNotation
import RayzTarget.TargetNetwork

/-! # Which device is credited with a kill

A death is broadcast with the decoded shooter; every other device compares the device id of
the message, and nothing else, with the id it started with. -/
namespace KillCredit

open ProcessingTask (DeviceConfig PlayerMessage)
open ProcessingTally (carried deaths_broadcast sevenAt)
open EspnowTask (EspnowMessageEnvelope)
open EventRuns TargetNetwork

variable {ι : Type*} [DecidableEq ι] (validate : UInt32 → Bool × UInt8 × UInt8)

/-- The death behind a broadcast: the two lists go in step on every device. -/
theorem death_of_broadcast (configs : ι → DeviceConfig) (es : List (Event ι)) {d : ι} {k : ℕ}
    {m : PlayerMessage} (hm : ((run (next validate) (boot configs) es).device
      d).processing.broadcasts[k]? = some m) :
    ((run (next validate) (boot configs) es).device d).processing.deaths[k]? =
      some (carried m).2 := by
  obtain ⟨fs, hfs⟩ := processing_reachable validate configs es d
  rw [hfs] at hm ⊢
  have inside := (List.getElem?_eq_some_iff.mp hm).1
  rw [deaths_broadcast, List.getElem?_append_left (by simpa using inside), List.getElem?_map, hm]
  rfl

/-- The copy was taken from the air, so it is another device's broadcast. -/
theorem credited_origin (configs : ι → DeviceConfig) (es : List (Event ι)) {d : ι}
    {p : Packet ι} (hp : p ∈ ((run (next validate) (boot configs) es).device d).espnow.credited) :
    p.sender ≠ d ∧ ((run (next validate) (boot configs) es).device
      p.sender).processing.broadcasts[p.srcMac.number]? = some p.msg := by
  have inv := invariant_run validate configs es
  obtain ⟨aired, other⟩ := inv.conserved.mem_taken hp
  exact ⟨other, inv.numbered p aired⟩

theorem credited_started (configs : ι → DeviceConfig) (es : List (Event ι)) {d : ι}
    {p : Packet ι} (hp : p ∈ ((run (next validate) (boot configs) es).device d).espnow.credited) :
    ((run (next validate) (boot configs) es).device d).espnow.pc ≠ .start ∧
    p.msg.type = .hitEvent ∧
    p.msg.deviceId = ((run (next validate) (boot configs) es).device d).espnow.selfDeviceId := by
  have ok := (invariant_run validate configs es).confirmed d
  have confirms := ok.confirmed p hp
  simp only [EspnowTask.State.confirms, Bool.and_eq_true, beq_iff_eq] at confirms
  refine ⟨?_, confirms⟩
  intro hpc
  simp [ok.idle_at_start hpc] at hp

/-- A broadcast death is credited only on devices, other than its sender, that started with
the decoded device id; each of them credits it once, and two of them share that id. -/
theorem credited_by_started_id (configs : ι → DeviceConfig) (es : List (Event ι)) :
    let s := run (next validate) (boot configs) es
    (∀ d, ∀ p ∈ (s.device d).espnow.recordedHits ++ (s.device d).espnow.recordedKills,
      p.srcMac.sender ≠ d ∧
      ∃ l, (s.device p.srcMac.sender).processing.deaths[p.srcMac.number]? = some l ∧
        carried p.msg = (.hitEvent, l) ∧
        ∃ pre a pick post, es = pre ++ .espnow d a pick :: post ∧
          ((run (next validate) (boot configs) pre).device d).espnow.pc = .start ∧
          ((run (next validate) (boot configs) pre).device d).config.deviceId = l.device) ∧
    (∀ d, ((s.device d).espnow.recordedHits.map EspnowMessageEnvelope.srcMac).Nodup ∧
      ((s.device d).espnow.recordedKills.map EspnowMessageEnvelope.srcMac).Nodup) ∧
    (∀ d d' p p', p ∈ (s.device d).espnow.recordedKills →
      p' ∈ (s.device d').espnow.recordedKills → p.srcMac = p'.srcMac →
        (s.device d).espnow.selfDeviceId = (s.device d').espnow.selfDeviceId) := by
  intro s
  have inv : Invariant s _ := invariant_run validate configs es
  refine ⟨?_, ?_, ?_⟩
  · intro d p hp
    have credited := (inv.confirmed d).mem_credited hp
    obtain ⟨other, issued⟩ := credited_origin validate configs es credited
    obtain ⟨started, hit, sameId⟩ := credited_started validate configs es credited
    obtain ⟨pre, a, pick, post, hes, hstart, hid⟩ := started_with validate configs es d started
    refine ⟨other, (carried p.msg).2, death_of_broadcast validate configs es issued, ?_, ?_⟩
    · exact Prod.ext hit rfl
    · exact ⟨pre, a, pick, post, hes, hstart, hid.trans sameId.symm⟩
  · intro d
    have all := inv.conserved.taken_nodup inv.distinct d
    constructor
    · rw [← (inv.confirmed d).hits_credited, List.map_append] at all
      exact (List.nodup_append.mp all).1
    · rw [EspnowTask.State.credited, List.map_append] at all
      exact (List.nodup_append.mp all).1
  · intro d d' p p' hp hp' horigin
    have credited := (inv.confirmed d).mem_credited (List.mem_append_right _ hp)
    have credited' := (inv.confirmed d').mem_credited (List.mem_append_right _ hp')
    have issued := (credited_origin validate configs es credited).2
    have issued' := (credited_origin validate configs es credited').2
    have sameMsg : p.msg = p'.msg := by
      rw [Packet.sender, horigin] at issued
      exact Option.some.inj (issued.symm.trans issued')
    have id := (credited_started validate configs es credited).2.2
    have id' := (credited_started validate configs es credited').2.2
    exact id.symm.trans ((congrArg PlayerMessage.deviceId sameMsg).trans id')

def up (ι : Type*) : EspnowTask.Answers (Origin ι) := ⟨⟨0, 0, 0, 0⟩, true, 1, true, none, none⟩

def starts (d : ι) : List (Event ι) := List.replicate 4 (.espnow d (up ι) none)

def hitBySeven (d : ι) : List (Event ι) :=
  .server d ⟨7, true, 100⟩ 1 :: List.replicate 13 (.processing d (sevenAt 200))

def hears (d : ι) : List (Event ι) :=
  .espnow d (up ι) (some 0) :: List.replicate 3 (.espnow d (up ι) none)

/-- Two players' devices with one device id: both are credited with the one death. -/
theorem shared_device_id_two_kills :
    let configs : Fin 3 → DeviceConfig := ![⟨9, 9, 0, 0⟩, ⟨1, 4, 0, 0⟩, ⟨2, 4, 0, 0⟩]
    let s := run (next fun _ => (true, 1, 4)) (boot configs)
      (starts 1 ++ starts 2 ++ hitBySeven 0 ++ hears 1 ++ hears 2)
    (∀ d d', d ≠ d' → ((configs d).playerId, (configs d).deviceId) ≠
      ((configs d').playerId, (configs d').deviceId)) ∧
    (s.device 0).processing.deaths = [⟨7, 1, 4⟩] ∧
    (s.device 1).espnow.recordedKills.map EspnowMessageEnvelope.srcMac = [⟨0, 0⟩] ∧
    (s.device 2).espnow.recordedKills.map EspnowMessageEnvelope.srcMac = [⟨0, 0⟩] := by
  decide

def KeepsIds (configs : ι → DeviceConfig) (es : List (Event ι)) : Prop :=
  ∀ d c, .reconfigure d c ∈ es → c.deviceId = (configs d).deviceId

theorem deviceId_kept {configs : ι → DeviceConfig} {es : List (Event ι)}
    (h : KeepsIds configs es) (d : ι) :
    ((run (next validate) (boot configs) es).device d).config.deviceId =
      (configs d).deviceId := by
  induction es using List.reverseRecOn with
  | nil => rfl
  | append_singleton es e ih =>
    have before := ih fun d c hc => h d c (List.mem_append_left _ hc)
    rw [run_snoc]
    cases e with
    | reconfigure d' c =>
      by_cases hd : d = d'
      · subst hd
        simpa [next] using h d c (List.mem_append_right _ (List.mem_singleton.mpr rfl))
      · simpa [next, hd] using before
    | processing d' a => by_cases hd : d = d' <;> simpa [next, hd] using before
    | server d' e all => by_cases hd : d = d' <;> simpa [next, hd] using before
    | espnow d' a pick => by_cases hd : d = d' <;> simpa [next, hd] using before
    | lose d' i => exact before

def hitFor (id : UInt8) (p : Packet ι) : Bool :=
  p.msg.type == .hitEvent && p.msg.deviceId == id

/-- While ids are kept, all a device credits carries its own id. -/
theorem credited_hitFor {configs : ι → DeviceConfig} {es : List (Event ι)}
    (h : KeepsIds configs es) (d : ι) :
    ∀ p ∈ ((run (next validate) (boot configs) es).device d).espnow.credited,
      hitFor (configs d).deviceId p = true := by
  intro p hp
  obtain ⟨started, hit, sameId⟩ := credited_started validate configs es hp
  obtain ⟨pre, a, pick, post, rfl, -, hid⟩ := started_with validate configs es d started
  have kept := deviceId_kept validate
    (fun d c hc => h d c (List.mem_append_left _ hc)) d
  simp [hitFor, hit, sameId, ← hid, kept]

/-- The broadcasts that carry an id are no more than the deaths decoded with it. -/
theorem broadcasts_le_deaths (configs : ι → DeviceConfig) (es : List (Event ι)) (d : ι)
    (id : UInt8) :
    ((observe (next validate) airs (boot configs) es).filter fun p => p.sender = d).countP
        (hitFor id) ≤
      ((run (next validate) (boot configs) es).device d).processing.deaths.countP
        (·.device == id) := by
  obtain ⟨fs, hfs⟩ := processing_reachable validate configs es d
  have issued := (invariant_run validate configs es).issued d
  have deaths := deaths_broadcast validate fs
  rw [← hfs, ← issued] at deaths
  rw [deaths, List.countP_append, List.countP_map, List.countP_map]
  refine Nat.le_add_right_of_le (List.countP_mono_left fun p _ hp => ?_)
  simp only [hitFor, Bool.and_eq_true] at hp
  exact hp.2

/-- Kills on a device, with the copies still on their way to it, never exceed the deaths that
the other devices recorded for its id; so kills never exceed deaths. -/
theorem kills_le_deaths [Fintype ι] (configs : ι → DeviceConfig) (es : List (Event ι))
    (distinct : Function.Injective fun d => (configs d).deviceId) (kept : KeepsIds configs es) :
    let s := run (next validate) (boot configs) es
    (∀ d, (s.device d).espnow.recordedKills.length +
        (s.flight d).countP (hitFor (configs d).deviceId) ≤
      ∑ d' ∈ Finset.univ.erase d,
        (s.device d').processing.deaths.countP (·.device == (configs d).deviceId)) ∧
    ∑ d, (s.device d).espnow.recordedKills.length ≤
      ∑ d, (s.device d).processing.deaths.length := by
  intro s
  have perDevice : ∀ d, (s.device d).espnow.recordedKills.length +
      (s.flight d).countP (hitFor (configs d).deviceId) ≤
        ∑ d' ∈ Finset.univ.erase d,
          (s.device d').processing.deaths.countP (·.device == (configs d).deviceId) := by
    intro d
    have own := List.countP_eq_length.mpr (credited_hitFor validate kept d)
    have kills : (s.device d).espnow.recordedKills.length ≤
        (s.device d).espnow.credited.length := by simp [EspnowTask.State.credited]
    have copies := (invariant_run validate configs es).conserved.countP_le
      (hitFor (configs d).deviceId) d
    calc (s.device d).espnow.recordedKills.length + (s.flight d).countP (hitFor _)
        ≤ (s.device d).espnow.credited.countP (hitFor (configs d).deviceId) +
          (s.flight d).countP (hitFor _) := by rw [own]; exact Nat.add_le_add_right kills _
      _ ≤ _ := copies
      _ ≤ _ := Finset.sum_le_sum fun d' _ =>
        broadcasts_le_deaths validate configs es d' (configs d).deviceId
  refine ⟨perDevice, ?_⟩
  calc ∑ d, (s.device d).espnow.recordedKills.length
      ≤ ∑ d, ∑ d', (s.device d').processing.deaths.countP (·.device == (configs d).deviceId) :=
        Finset.sum_le_sum fun d _ => (Nat.le_of_add_right_le (perDevice d)).trans
          (Finset.sum_le_sum_of_subset (Finset.erase_subset d _))
    _ = ∑ d', ∑ d, (s.device d').processing.deaths.countP (·.device == (configs d).deviceId) :=
        Finset.sum_comm
    _ ≤ _ := Finset.sum_le_sum fun d' _ =>
        LossyBroadcast.sum_countP_le distinct ProcessingTask.Laser.device _

theorem kills_le_deaths_one_kill :
    let configs : Fin 2 → DeviceConfig := ![⟨9, 9, 0, 0⟩, ⟨1, 4, 0, 0⟩]
    let s := run (next fun _ => (true, 1, 4)) (boot configs)
      (starts 1 ++ hitBySeven 0 ++ hears 1)
    (s.device 1).espnow.recordedKills.length = 1 ∧
    ∑ d, (s.device d).espnow.recordedKills.length ≤
      ∑ d, (s.device d).processing.deaths.length :=
  ⟨by decide, (kills_le_deaths (fun _ => (true, 1, 4)) ![⟨9, 9, 0, 0⟩, ⟨1, 4, 0, 0⟩]
    (starts 1 ++ hitBySeven 0 ++ hears 1) (by decide)
    (by simp [KeepsIds, starts, hitBySeven, hears])).2⟩

end KillCredit
