import RayzTarget.TraceMonitor

/-! Messages cut into frames. The first frame of a message names its kind, the others continue
it, and the last one is marked final; a receiver assembles the frames as they come. -/
namespace MessageFrames

variable {κ β : Type*}

structure Frame (κ β : Type*) where
  /-- No kind: the frame continues the message before it. -/
  kind : Option κ
  final : Bool
  payload : List β
  deriving DecidableEq

structure Assembly (κ β : Type*) where
  messages : List (κ × List β)
  /-- The message begun and not yet final. -/
  begun : Option (κ × List β)
  deriving DecidableEq

namespace Assembly

def empty : Assembly κ β := ⟨[], none⟩

def extend (a : Assembly κ β) (k : κ) (body : List β) (final : Bool) : Assembly κ β :=
  if final then ⟨a.messages ++ [(k, body)], none⟩ else ⟨a.messages, some (k, body)⟩

/-- A continuation without a message, or a message within a message, is a protocol error. -/
def accept (a : Assembly κ β) (f : Frame κ β) : Option (Assembly κ β) :=
  match a.begun, f.kind with
  | none, some k => some (a.extend k f.payload f.final)
  | some (k, body), none => some (a.extend k (body ++ f.payload) f.final)
  | _, _ => none

def bytes (a : Assembly κ β) : List β :=
  (a.messages.map Prod.snd).flatten ++ (a.begun.map Prod.snd).getD []

end Assembly

def assemble (a : Assembly κ β) (fs : List (Frame κ β)) : Option (Assembly κ β) :=
  TraceMonitor.reads Assembly.accept a fs

open Assembly

theorem accept_first {a : Assembly κ β} (h : a.begun = none) (k : κ) (final : Bool)
    (body : List β) : a.accept ⟨some k, final, body⟩ = some (a.extend k body final) := by
  simp [accept, h]

theorem accept_continued {a : Assembly κ β} {k : κ} {body : List β} (h : a.begun = some (k, body))
    (final : Bool) (more : List β) :
    a.accept ⟨none, final, more⟩ = some (a.extend k (body ++ more) final) := by
  simp [accept, h]

theorem bytes_accept {a b : Assembly κ β} {f : Frame κ β} (h : a.accept f = some b) :
    b.bytes = a.bytes ++ f.payload := by
  obtain ⟨ms, begun⟩ := a
  obtain ⟨kind, final, payload⟩ := f
  rcases begun with _ | ⟨k, body⟩ <;> rcases kind with _ | k' <;> simp only [accept] at h
  · cases h
  · cases h
    cases final <;> simp [extend, bytes]
  · cases h
    cases final <;> simp [extend, bytes]
  · cases h

/-- Assembling neither loses, reorders nor repeats payload. -/
theorem bytes_assemble {a b : Assembly κ β} {fs : List (Frame κ β)}
    (h : assemble a fs = some b) : b.bytes = a.bytes ++ (fs.map Frame.payload).flatten := by
  induction fs generalizing a with
  | nil =>
    cases h
    simp
  | cons f fs ih =>
    obtain ⟨c, hc, h⟩ := Option.bind_eq_some_iff.mp h
    rw [ih h, bytes_accept hc]
    simp

end MessageFrames
