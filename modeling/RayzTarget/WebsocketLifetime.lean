import RayzTarget.WebsocketInit

/-! # The lifetime of a websocket client

From `esp_websocket_client_init` over any calls to `esp_websocket_client_destroy`, whatever is
granted on the way: when a block is released twice, and what is never released. -/
namespace WebsocketLifetime

open WebsocketMemory WebsocketDangling WebsocketOwnership WebsocketInit OwnedBlocks EventRuns
open WebsocketClient (bufferSize)

variable {A B : Books} {g : Grants} {keeps : Bool} {f : Field} {Q : Unit → Books → Prop}
  {E : Stop EspErr → Books → Prop} {parse : Text → Option ParsedUrl} {encode : Text → Text}
  {config : InitConfig}

/-! ## While there is a client -/

/-- `errormsg_size` is the size of the buffer, or zero without one. -/
def Sized (A : Books) : Prop :=
  A.status .errormsgBuffer = .null ∧ A.vars = 0 ∨
    A.status .errormsgBuffer = .holds (.buffer A.vars)

structure Serving (A : Books) (size : ℕ) (leak : Multiset Block) : Prop where
  sound : Sound A leak
  lock : A.status .lock ≠ .null
  config : A.status .config ≠ .null
  rx : A.status .rxBuffer = .holds (.buffer size)
  tx : A.status .txBuffer = .holds (.buffer size)
  sized : Sized A

variable {size : ℕ} {leak : Multiset Block}

theorem Serving.restrung (h : Serving A size leak) {more : Multiset Block}
    (hB : Restrung A B more) : Serving B size (leak + more) := by
  have hother : ∀ s, (∀ f, s ≠ .field f) → B.status s = A.status s := hB.others
  constructor
  · exact h.sound.restrung h.config hB
  · rw [hother _ (by simp)]
    exact h.lock
  · rw [hother _ (by simp)]
    exact h.config
  · rw [hother _ (by simp)]
    exact h.rx
  · rw [hother _ (by simp)]
    exact h.tx
  · unfold Sized
    rw [hother _ (by simp), hB.vars]
    exact h.sized

/-- The buffer is replaced, and `errormsg_size` with it. -/
theorem Serving.resized (h : Serving A size leak) {x : Status Block} {n : ℕ}
    (hx : x = .null ∧ n = 0 ∨ x = .holds (.buffer n)) :
    Serving ((A.set .errormsgBuffer x).setVars fun _ => n) size leak := by
  have hsound : x ≠ .dangling := by rcases hx with ⟨rfl, -⟩ | rfl <;> simp
  constructor
  · constructor
    · intro s
      by_cases hs : s = .errormsgBuffer
      · simpa [hs] using hsound
      · simpa [hs] using h.sound.sound s
    · intro f
      simpa using h.sound.strings f
    · simpa using h.sound.info
    · simpa using h.sound.digest
    · intro hnull
      simp only [Account.setVars_status, Account.set_status] at hnull
      exact absurd hnull h.config
    · exact h.sound.lost
  · simpa using h.lock
  · simpa using h.config
  · simpa using h.rx
  · simpa using h.tx
  · simpa [Sized] using hx

variable {R : Stop EspErr → Books → Prop}

theorem wp_printErrormsg (h : A.status .errormsgBuffer = .holds (.buffer A.vars)) (hQ : Q () A) :
    wp printErrormsg Q E A := by
  apply wp_bind
  apply wp_getVars
  apply wp_bind
  apply wp_read
  · intro hs
    rw [h] at hs
    cases hs
  · intro v hs
    cases h.symm.trans hs
    simp only [Nat.lt_irrefl, if_false]
    exact wp_pure hQ
  · intro hs
    rw [h] at hs
    cases hs

/-- The text of an error always fits its buffer, and no string is touched. -/
theorem wp_error {needed : ℕ} (h : Serving A size leak)
    (hyes : ∀ B, Serving B size leak → (∀ f, B.status (.field f) = A.status (.field f)) → Q () B)
    (hno : ∀ B, Serving B size leak → (∀ f, B.status (.field f) = A.status (.field f)) →
      E (.failed .noMem) B) :
    wp (error g needed) Q E A := by
  apply wp_bind
  apply wp_getVars
  by_cases hneeded : needed + 1 > A.vars
  · rw [if_pos hneeded]
    apply wp_bind
    have hgrow : ∀ B : Books, (B.status .errormsgBuffer).held = 0 →
        (∀ x, B.set .errormsgBuffer x = A.set .errormsgBuffer x) →
        wp (do
          alloc (g .errormsgBuffer) .errormsgBuffer (.buffer (needed + 1))
          if ← isNull .errormsgBuffer then
            setVars fun _ => 0
            throw (.failed .noMem)
          else setVars fun _ => needed + 1)
          (fun _ => wp printErrormsg Q E) E B := by
      intro B hheld hset
      apply wp_bind
      apply wp_alloc
      · intro _
        rw [Account.assign_eq_set _ hheld, hset]
        apply wp_bind
        apply wp_isNull
        · intro hs
          simp at hs
        · intro _
          apply wp_setVars
          apply wp_printErrormsg
          · simp
          · apply hyes
            · exact h.resized (.inr rfl)
            · simp
      · intro _
        rw [Account.assign_eq_set _ hheld, hset]
        apply wp_bind
        apply wp_isNull
        · intro _
          apply wp_bind
          apply wp_setVars
          apply wp_throw
          apply hno
          · exact h.resized (.inl ⟨rfl, rfl⟩)
          · simp
        · intro hs
          simp at hs
    apply wp_bind
    apply wp_release
    · intro hs
      exact hgrow A (by simp [hs]) fun _ => rfl
    · intro v _
      exact hgrow _ (by simp) fun x => Account.set_set _ _
    · intro hs
      exact absurd hs (h.sound.sound _)
  · rw [if_neg hneeded]
    rcases h.sized with ⟨-, hvars⟩ | hholds
    · omega
    · exact wp_printErrormsg hholds (hyes A h fun _ => rfl)

/-! ## Whole lifetimes -/

def callLost (parse : Text → Option ParsedUrl) : Call → Multiset Block
  | .setUri uri g => uriLost parse g uri
  | .error _ _ => 0

def inPlace (m : Memory) (f : Field) : Bool := (m.slots (.field f)).isSome

/-- A call in which `asprintf` keeps the pointer to a string that was released. -/
def CallLapses (keeps : Bool) (parse : Text → Option ParsedUrl) : Lifetime → Call → Prop
  | .alive m, .setUri uri g => ∃ f, Lapses keeps parse g uri (inPlace m) f
  | _, _ => False

variable {m : Memory} {c : Call} {l : Lifetime}

theorem inPlace_eq (h : Shows m A) : inPlace m = isHeld A := by
  funext f
  rcases h.slot (.field f) with ⟨hp, hs⟩ | ⟨p, hp, ⟨v, -, hs⟩ | ⟨-, hs⟩⟩
  · simp [inPlace, isHeld, hp, hs]
  · simp [inPlace, isHeld, hp, hs]
  · simp [inPlace, isHeld, hp, hs]

theorem uriLost_taken {uri : Text} (h : uriTaken parse g uri = true) : uriLost parse g uri = 0 := by
  cases hu : parse uri with
  | none => simp [uriLost, hu]
  | some u =>
    have hinfo : userInfoGranted g (urlUserInfo uri u) = true := by
      simp only [uriTaken, hu, Option.any_some, Bool.and_eq_true] at h
      exact h.2
    simp only [uriLost, hu]
    split
    · cases ho : urlUserInfo uri u with
      | none => rfl
      | some info =>
        rw [ho] at hinfo
        simp only [userInfoGranted, Option.all_some, Bool.and_eq_true] at hinfo
        simp [userInfoLost, hinfo.2]
    · rfl

/-- A call leaves a client that serves, without what the call loses. -/
theorem perform_serving (h : Serving A size leak)
    (hnot : ∀ uri g f, c = .setUri uri g → ¬ Lapses keeps parse g uri (isHeld A) f) :
    wp (perform keeps parse c) (fun _ B => Serving B size (leak + callLost parse c))
      (fun e B => e ≠ .fault ∧ Serving B size (leak + callLost parse c)) A := by
  cases c with
  | setUri uri g =>
    apply wp_setUri h.sound.info h.config h.sound.strings
    · intro htaken u _
      have := h.restrung ((Restrung.refl h.sound.strings).located uri u)
      rwa [callLost, uriLost_taken htaken]
    · intro _ _ e B hB
      exact ⟨nofun, h.restrung hB⟩
    · intro f hf
      exact absurd hf (hnot uri g f rfl)
  | error needed g =>
    rw [callLost, add_zero]
    apply wp_error h
    · intro B hB _
      exact hB
    · intro B hB _
      exact ⟨nofun, hB⟩

theorem perform_lapsing {uri : Text} (h : Serving A size leak)
    (hf : Lapses keeps parse g uri (isHeld A) f) :
    wp (perform keeps parse (.setUri uri g)) (fun _ B => ∃ f, Doomed f B)
      (fun e B => e = .fault ∨ ∃ f, Doomed f B) A := by
  apply wp_setUri h.sound.info h.config h.sound.strings
  · intro htaken u hu
    obtain ⟨-, -, v, hv, hfirst⟩ := hf
    cases hu.symm.trans hv
    simp [uriTaken, hu, hfirst] at htaken
  · intro _ hnot
    exact absurd hf (hnot f)
  · intro f' _
    constructor
    · intro B hB
      exact ⟨f', hB⟩
    · intro e B he
      exact he.imp_right fun hB => ⟨f', hB⟩

theorem perform_doomed (h : Doomed f A) :
    wp (perform keeps parse c) (fun _ B => ∃ f, Doomed f B)
      (fun e B => e = .fault ∨ ∃ f, Doomed f B) A := by
  have hkeeps : Keeps (Doomed f) (perform keeps parse c) := by
    cases c with
    | setUri uri g => exact doomed_setUri
    | error needed g => exact doomed_error
  apply wp_mono (hkeeps A h)
  · intro _ B hB
    exact ⟨f, hB⟩
  · intro e B he
    exact he.imp_right fun hB => ⟨f, hB⟩

/-- Before the client is destroyed: it serves, or has lapsed and is to fault. -/
def Standing (lapsed : Prop) (size : ℕ) (leak : Multiset Block) : Lifetime → Prop
  | .alive m => ∃ A, Shows m A ∧ (¬ lapsed ∧ Serving A size leak ∨ lapsed ∧ ∃ f, Doomed f A)
  | .ended _ => False
  | .faulted => lapsed

/-- What is certain of a call is certain of the lifetime after it. -/
theorem next_of_wp {P : Lifetime → Prop} (hm : Shows m A) (h : wp (perform keeps parse c) Q E A)
    (hok : ∀ m' B, Shows m' B → Q () B → P (.alive m'))
    (hfail : ∀ e m' B, Shows m' B → E (.failed e) B → P (.alive m'))
    (hfault : ∀ B, E .fault B → P .faulted) : P (next keeps parse (.alive m) c) := by
  have hrun := h m hm
  unfold next
  cases hr : perform keeps parse c m with
  | ok a m' =>
    rw [hr] at hrun
    obtain ⟨B, hB, hq⟩ := hrun
    simp only [hr]
    exact hok m' B hB hq
  | error e m' =>
    rw [hr] at hrun
    obtain ⟨B, hB, he⟩ := hrun
    simp only [hr]
    cases e with
    | fault => exact hfault B he
    | failed e => exact hfail e m' B hB he

theorem standing_next {lapsed : Prop} (h : Standing lapsed size leak l) (c : Call) :
    Standing (lapsed ∨ CallLapses keeps parse l c) size (leak + callLost parse c)
      (next keeps parse l c) := by
  cases l with
  | ended m => exact h.elim
  | faulted => exact .inl h
  | alive m =>
    -- a client that has lapsed goes on so, or faults
    have hdoomed : (lapsed ∨ CallLapses keeps parse (.alive m) c) → ∀ {A}, Shows m A →
        wp (perform keeps parse c) (fun _ B => ∃ f, Doomed f B)
          (fun e B => e = .fault ∨ ∃ f, Doomed f B) A →
        Standing (lapsed ∨ CallLapses keeps parse (.alive m) c) size (leak + callLost parse c)
          (next keeps parse (.alive m) c) := by
      intro hlapsed A hm hwp
      apply next_of_wp hm hwp
      · intro m' B hB hf
        exact ⟨B, hB, .inr ⟨hlapsed, hf⟩⟩
      · intro e m' B hB he
        exact ⟨B, hB, .inr ⟨hlapsed, he.resolve_left nofun⟩⟩
      · intro _ _
        exact hlapsed
    obtain ⟨A, hm, ⟨hnot, hA⟩ | ⟨hlapsed, f, hA⟩⟩ := h
    · by_cases hcall : CallLapses keeps parse (.alive m) c
      · apply hdoomed (.inr hcall) hm
        cases c with
        | setUri uri g =>
          obtain ⟨f, hf⟩ := hcall
          rw [inPlace_eq hm] at hf
          exact perform_lapsing hA hf
        | error needed g => exact hcall.elim
      · have hnone : ∀ uri g f, c = .setUri uri g →
            ¬ Lapses keeps parse g uri (isHeld A) f := by
          rintro uri g f rfl hf
          refine hcall ⟨f, ?_⟩
          rwa [inPlace_eq hm]
        have hneither : ¬ (lapsed ∨ CallLapses keeps parse (.alive m) c) := not_or.mpr ⟨hnot, hcall⟩
        apply next_of_wp hm (perform_serving hA hnone)
        · intro m' B hB hS
          exact ⟨B, hB, .inl ⟨hneither, hS⟩⟩
        · intro e m' B hB he
          exact ⟨B, hB, .inl ⟨hneither, he.2⟩⟩
        · intro B he
          exact absurd rfl he.1
    · exact hdoomed (.inl hlapsed) hm (perform_doomed hA)

variable {cs : List Call}

def RunLapses (keeps : Bool) (parse : Text → Option ParsedUrl) (l : Lifetime) (cs : List Call) :
    Prop :=
  ∃ pre c post, cs = pre ++ c :: post ∧
    CallLapses keeps parse (run (next keeps parse) l pre) c

theorem runLapses_snoc : RunLapses keeps parse l (cs ++ [c]) ↔
    RunLapses keeps parse l cs ∨ CallLapses keeps parse (run (next keeps parse) l cs) c :=
  exists_event_snoc (P := fun pre c => CallLapses keeps parse (run (next keeps parse) l pre) c)

theorem standing_run {lapsed : Prop} (h : Standing lapsed size leak l) (cs : List Call) :
    Standing (lapsed ∨ RunLapses keeps parse l cs) size (leak + (cs.map (callLost parse)).sum)
      (run (next keeps parse) l cs) := by
  induction cs using List.reverseRecOn with
  | nil =>
    have hnil : ¬ RunLapses keeps parse l [] := by
      rintro ⟨pre, c, post, hcs, -⟩
      simp at hcs
    simpa [hnil] using h
  | append_singleton cs c ih =>
    have hnext : Standing _ size _ (next keeps parse (run (next keeps parse) l cs) c) :=
      standing_next ih c
    rw [run_snoc, runLapses_snoc, ← or_assoc, List.map_append, List.sum_append, ← add_assoc]
    simpa using hnext

/-- What is certain of `esp_websocket_client_destroy` is certain of the end. -/
theorem destroyed_of_wp {P : Lifetime → Prop} (hm : Shows m A) (h : wp destroy Q E A)
    (hok : ∀ m' B, Shows m' B → Q () B → P (.ended m')) (hfail : ∀ e B, E e B → P .faulted) :
    P (destroyed (.alive m)) := by
  have hrun := h m hm
  unfold destroyed
  cases hr : destroy m with
  | ok a m' =>
    rw [hr] at hrun
    obtain ⟨B, hB, hq⟩ := hrun
    simp only [hr]
    exact hok m' B hB hq
  | error e m' =>
    rw [hr] at hrun
    obtain ⟨B, -, he⟩ := hrun
    simp only [hr]
    exact hfail e B he

theorem destroyed_standing {lapsed : Prop} (h : Standing lapsed size leak l) :
    (destroyed l = .faulted ↔ lapsed) ∧ ∀ m, destroyed l = .ended m → m.live = leak := by
  cases l with
  | ended m => exact h.elim
  | faulted => exact ⟨⟨fun _ => h, fun _ => rfl⟩, nofun⟩
  | alive m =>
    obtain ⟨A, hm, ⟨hnot, hA⟩ | ⟨hlapsed, f, hA⟩⟩ := h
    · have hdestroy : wp destroy (fun _ B => B.lost = leak ∧ ∀ s, (B.status s).held = 0)
          (fun _ _ => False) A := by
        apply wp_destroy hA.sound.sound hA.sound.fields hA.sound.info hA.sound.digest
        · intro hnull
          exact absurd hnull hA.lock
        · intro _ B hlost hheld
          exact ⟨hlost.trans hA.sound.lost, hheld⟩
      apply destroyed_of_wp (P := fun l => (l = .faulted ↔ lapsed) ∧
        ∀ m, l = .ended m → m.live = leak) hm hdestroy
      · rintro m' B hB ⟨hlost, hheld⟩
        refine ⟨⟨nofun, fun h => absurd h hnot⟩, ?_⟩
        rintro m'' ⟨⟩
        rw [hB.live, hlost, Finset.sum_eq_zero fun s _ => hheld s, add_zero]
      · intro e B hfalse
        exact hfalse.elim
    · have hdestroy : wp destroy (fun _ _ => False) (fun e _ => e = .fault) A :=
        wp_destroy_doomed hA fun _ => rfl
      apply destroyed_of_wp (P := fun l => (l = .faulted ↔ lapsed) ∧
        ∀ m, l = .ended m → m.live = leak) hm hdestroy
      · intro m' B _ hfalse
        exact hfalse.elim
      · intro e B _
        exact ⟨⟨fun _ => hlapsed, fun _ => rfl⟩, nofun⟩

theorem shows_empty : Shows (Store.empty 0) blank := by
  constructor
  · rfl
  · rfl
  · simp [Store.live, Store.empty, blank]

theorem ready_other (hA : ∀ f, IsString (A.status (.field f)))
    (hs : ∀ f, s ≠ .field f) (hb : s ≠ .rxBuffer ∧ s ≠ .txBuffer ∧ s ≠ .statusBits) :
    (ready encode config A).status s = A.status s := by
  have hconfigured : Restrung A (configured encode A config) _ := configured_restrung hA
  have hsettled : (settled encode config A).status s = A.status s := by
    simp only [settled]
    split
    · simpa [hs] using hconfigured.others s hs
    · exact hconfigured.others s hs
  simpa [ready, hb.1, hb.2.1, hb.2.2] using hsettled

theorem ready_vars (hA : ∀ f, IsString (A.status (.field f))) :
    (ready encode config A).vars = A.vars := by
  have hconfigured : Restrung A (configured encode A config) _ := configured_restrung hA
  have hsettled : (settled encode config A).vars = A.vars := by
    simp only [settled]
    split <;> exact hconfigured.vars
  exact hsettled

theorem ready_serving (h : Sound (ready encode config (addressed parse config)) leak) :
    Serving (ready encode config (addressed parse config))
      (bufferSize config.toUserConfig) leak := by
  have haddressed := addressed_restrung parse config
  have hother : ∀ s, (∀ f, s ≠ .field f) → s ≠ .rxBuffer ∧ s ≠ .txBuffer ∧ s ≠ .statusBits →
      (ready encode config (addressed parse config)).status s = (based config).status s := by
    intro s hs hb
    exact (ready_other haddressed.strings hs hb).trans (haddressed.others s hs)
  constructor
  · exact h
  · rw [hother .lock (by simp) (by simp)]
    exact based_lock
  · rw [hother .config (by simp) (by simp)]
    exact based_config
  · simp [ready]
  · simp [ready]
  · left
    constructor
    · rw [hother .errormsgBuffer (by simp) (by simp)]
      exact based_other (by simp)
    · rw [ready_vars haddressed.strings, haddressed.vars, based_vars]

/-- What is certain of `esp_websocket_client_init` is certain of the lifetime it begins. -/
theorem created_of_wp {P : Lifetime → Prop} {R : Bool → Books → Prop}
    (h : wp (init keeps g parse encode config) R E blank)
    (halive : ∀ m B, Shows m B → R true B → P (.alive m))
    (hended : ∀ m B, Shows m B → R false B → P (.ended m))
    (hfault : ∀ e B, E e B → P .faulted) : P (created keeps parse encode config g) := by
  have hrun := h _ shows_empty
  unfold created
  cases hr : init keeps g parse encode config (.empty 0) with
  | ok b m =>
    rw [hr] at hrun
    obtain ⟨B, hB, hb⟩ := hrun
    cases b with
    | true => exact halive m B hB hb
    | false => exact hended m B hB hb
  | error e m =>
    rw [hr] at hrun
    obtain ⟨B, -, he⟩ := hrun
    exact hfault e B he

/-- What `esp_websocket_client_init` leaves behind: a client, or no client and what is lost. -/
theorem created_standing (keeps : Bool) (parse : Text → Option ParsedUrl) (encode : Text → Text)
    (config : InitConfig) (g : Grants) :
    Standing ((opens g = true ∧ lockMissing g config = true) ∨ InitLapses keeps parse g config)
        (bufferSize config.toUserConfig) (initLost parse g config)
        (created keeps parse encode config g) ∨
      ¬ (opens g = true ∧ lockMissing g config = true) ∧ ¬ InitLapses keeps parse g config ∧
        ∃ m, created keeps parse encode config g = .ended m ∧ m.live = initLost parse g config := by
  let wrong := (opens g = true ∧ lockMissing g config = true) ∨ InitLapses keeps parse g config
  have hinit : wp (init keeps g parse encode config)
      (fun b B =>
        if b then
          ¬ wrong ∧ Serving B (bufferSize config.toUserConfig)
            (initLost parse g config) ∨ wrong ∧ ∃ f, Doomed f B
        else ¬ wrong ∧ B.lost = initLost parse g config ∧ ∀ s, (B.status s).held = 0)
      (fun e _ => e = .fault ∧ wrong) blank := by
    apply wp_init
    · intro hopen hmissing hnot hsound
      refine .inl ⟨?_, ready_serving hsound⟩
      rintro (⟨-, h⟩ | h)
      · rw [hmissing] at h
        cases h
      · exact hnot h
    · intro _ hlock hnot B hlost hheld
      refine ⟨?_, hlost, hheld⟩
      rintro (⟨hopen, h⟩ | h)
      · rw [hlock hopen] at h
        cases h
      · exact hnot h
    · intro hopen hmissing _
      exact ⟨rfl, .inl ⟨hopen, hmissing⟩⟩
    · intro h
      exact ⟨fun B hB => .inr ⟨.inr h, .scheme, hB⟩, fun B => ⟨rfl, .inr h⟩⟩
  refine created_of_wp (P := fun l => Standing wrong
      (bufferSize config.toUserConfig) (initLost parse g config) l ∨
    ¬ (opens g = true ∧ lockMissing g config = true) ∧ ¬ InitLapses keeps parse g config ∧
      ∃ m, l = .ended m ∧ m.live = initLost parse g config) hinit ?_ ?_ ?_
  · intro m B hB hb
    exact .inl ⟨B, hB, hb⟩
  · rintro m B hB ⟨hnot, hlost, hheld⟩
    obtain ⟨hlock, hlapse⟩ := not_or.mp hnot
    refine .inr ⟨hlock, hlapse, m, rfl, ?_⟩
    rw [hB.live, hlost, Finset.sum_eq_zero fun s _ => hheld s, add_zero]
  · rintro e B ⟨-, hwrong⟩
    exact .inl hwrong

/-- A client has a lock. -/
theorem created_lock (h : (created keeps parse encode config g).isAlive = true) :
    lockMissing g config = false := by
  have hinit : wp (init keeps g parse encode config)
      (fun b _ => b = true → lockMissing g config = false) (fun _ _ => True) blank := by
    apply wp_init
    · intro _ hmissing _ _ _
      exact hmissing
    · intro _ _ _ _ _ _ hb
      cases hb
    · intro _ _ _
      trivial
    · rintro ⟨hreach, -⟩
      simp only [reachesUri, Bool.and_eq_true, Bool.not_eq_true'] at hreach
      exact ⟨fun _ _ _ => hreach.1.1.2, fun _ => trivial⟩
  refine created_of_wp (P := fun l => l.isAlive = true → lockMissing g config = false)
    hinit ?_ ?_ ?_ h
  · intro m B _ hb _
    exact hb rfl
  · intro m B _ _ halive
    cases halive
  · intro e B _ halive
    cases halive

variable {calls : List Call}

theorem run_ended (m : Memory) (cs : List Call) :
    run (next keeps parse) (.ended m) cs = .ended m := by
  induction cs using List.reverseRecOn with
  | nil => rfl
  | append_singleton cs c ih =>
    rw [run_snoc, ih]
    rfl

theorem run_faulted (cs : List Call) : run (next keeps parse) .faulted cs = .faulted := by
  induction cs using List.reverseRecOn with
  | nil => rfl
  | append_singleton cs c ih =>
    rw [run_snoc, ih]
    rfl

/-- As long as nothing lapsed, the buffers of a client are there in the size that its sessions are
told, and so is the buffer of error texts. -/
theorem buffers_stand {m : Memory} (encode : Text → Text)
    (hinit : ¬ InitLapses keeps parse g config)
    (hcalls : ¬ RunLapses keeps parse (created keeps parse encode config g) calls)
    (halive : run (next keeps parse) (created keeps parse encode config g) calls = .alive m) :
    m.status .rxBuffer = .holds (.buffer (bufferSize config.toUserConfig)) ∧
      m.status .txBuffer = .holds (.buffer (bufferSize config.toUserConfig)) ∧
      (m.status .errormsgBuffer = .null ∧ m.vars = 0 ∨
        m.status .errormsgBuffer = .holds (.buffer m.vars)) := by
  rcases created_standing keeps parse encode config g with h | ⟨-, -, m', hm, -⟩
  · have hcreated : (created keeps parse encode config g).isAlive = true := by
      cases hc : created keeps parse encode config g with
      | alive m₀ => rfl
      | ended m₀ =>
        rw [hc, run_ended] at halive
        cases halive
      | faulted =>
        rw [hc, run_faulted] at halive
        cases halive
    have hrun : Standing _ _ _ (run (next keeps parse) _ calls) := standing_run h calls
    rw [halive] at hrun
    obtain ⟨A, hA, ⟨-, hserving⟩ | ⟨hlapsed, -⟩⟩ := hrun
    · rw [hA.status, hA.vars]
      exact ⟨hserving.rx, hserving.tx, hserving.sized⟩
    · rcases hlapsed with (⟨hopen, hmissing⟩ | h) | h
      · rw [created_lock hcreated] at hmissing
        cases hmissing
      · exact absurd h hinit
      · exact absurd h hcalls
  · rw [hm, run_ended] at halive
    cases halive

def parseShort : Text → Option ParsedUrl
  | ['w', 's', ':', '/', '/', _] => some ⟨⟨0, 2⟩, ⟨5, 1⟩, ⟨0, 0⟩, ⟨0, 0⟩, ⟨0, 0⟩⟩
  | ['w', 's', ':', '/', '/', _, ':', _, '@', _] =>
    some ⟨⟨0, 2⟩, ⟨9, 1⟩, ⟨0, 0⟩, ⟨0, 0⟩, ⟨5, 3⟩⟩
  | _ => none

def shortConfig (host username password : Option Text) : InitConfig where
  disableAutoReconnect := false
  disablePingpongDiscon := false
  pingpongTimeoutSec := 0
  pingIntervalSec := 0
  reconnectTimeoutMs := 0
  bufferSize := 2
  uri := some ['w', 's', ':', '/', '/', 'h']
  host := host
  username := username
  password := password
  path := none
  subprotocol := none
  userAgent := none
  headers := none
  transport := .unknown
  ifName := false

/-- Two texts of errors, the second refused its buffer. -/
theorem buffers_stand_two_errors :
    let config := shortConfig none none none
    let calls := [.error 3 (fun _ => true), .error 5 (fun _ => false)]
    ∃ m, run (next true parseShort) (created true parseShort id config fun _ => true) calls =
        .alive m ∧ m.status .rxBuffer = .holds (.buffer 2) ∧
      m.status .txBuffer = .holds (.buffer 2) := by
  intro config calls
  have hinit : ¬ InitLapses true parseShort (fun _ => true) config := by
    rintro ⟨-, uri, -, -, hheld, -⟩
    simp [config, shortConfig] at hheld
  have hcalls : ¬ RunLapses true parseShort
      (created true parseShort id config fun _ => true) calls := by
    rintro ⟨pre, c, post, hsplit, hc⟩
    have hmem : c ∈ calls := by simp [hsplit]
    simp only [calls, List.mem_cons, List.not_mem_nil, or_false] at hmem
    generalize run _ _ pre = l at hc
    rcases hmem with rfl | rfl <;> cases l <;> exact hc
  obtain ⟨hrx, htx, -⟩ := buffers_stand id hinit hcalls rfl
  exact ⟨_, rfl, hrx, htx⟩

/-- A lifetime of a client, whatever is granted and whatever is called, ends with a fault exactly
when the client is destroyed without a lock, or `asprintf` fails on a string in place and keeps
the pointer to it. -/
theorem lifetime_faults_iff (keeps : Bool) (parse : Text → Option ParsedUrl)
    (encode : Text → Text) (config : InitConfig) (g : Grants) (calls : List Call) :
    lifetime keeps parse encode config g calls = .faulted ↔
      (opens g = true ∧ lockMissing g config = true) ∨ InitLapses keeps parse g config ∨
        RunLapses keeps parse (created keeps parse encode config g) calls := by
  rcases created_standing keeps parse encode config g with h | ⟨hlock, hlapse, m, hm, -⟩
  · rw [← or_assoc]
    exact (destroyed_standing (standing_run h calls)).1
  · have hrun : ¬ RunLapses keeps parse (created keeps parse encode config g) calls := by
      rintro ⟨pre, c, post, -, hc⟩
      rw [hm, run_ended] at hc
      exact hc
    rw [lifetime, hm, run_ended]
    simp only [hlock, hlapse, false_or]
    constructor
    · intro h
      cases h
    · intro h
      rw [hm] at hrun
      exact absurd h hrun

/-- What is still allocated after a lifetime without a fault is the host of a URI that gave way to
the host of the configuration, and for each URI whose credentials were not all copied the copy of
its user info. -/
theorem lifetime_leaks (keeps : Bool) (parse : Text → Option ParsedUrl) (encode : Text → Text)
    (config : InitConfig) (g : Grants) (calls : List Call) {m : Memory}
    (h : lifetime keeps parse encode config g calls = .ended m) :
    m.live = initLost parse g config +
      if (created keeps parse encode config g).isAlive then (calls.map (callLost parse)).sum
      else 0 := by
  rw [lifetime] at h
  rcases created_standing keeps parse encode config g with hs | ⟨-, -, m', hm, hlive⟩
  · have hend := (destroyed_standing (standing_run hs calls)).2 m h
    cases hc : created keeps parse encode config g with
    | alive m₀ => simpa [Lifetime.isAlive] using hend
    | ended m₀ =>
      rw [hc] at hs
      exact hs.elim
    | faulted =>
      rw [hc, run_faulted] at h
      cases h
  · rw [hm, run_ended] at h
    cases h
    rw [hlive, hm]
    exact (add_zero _).symm

/-- The host of the configuration replaces that of the URI, and the password of a later URI is
not copied. -/
theorem lifetime_leaks_host_and_user_info :
    let config := shortConfig (some ['x']) none none
    let calls := [.setUri ['w', 's', ':', '/', '/', 'u', ':', 'p', '@', 'b'] fun site =>
      site ≠ .uri .password]
    ∃ m, lifetime true parseShort id config (fun _ => true) calls = .ended m ∧
      m.live = {.text ['h'], .text ['u', ':', 'p']} := by
  intro config calls
  refine ⟨_, rfl, ?_⟩
  rw [lifetime_leaks true parseShort id config (fun _ => true) calls rfl]
  decide

end WebsocketLifetime
