import RayzTarget.WebsocketOwnership

/-! # The birth and the death of a websocket client

The account of the client that `esp_websocket_client_init` returns, what it leaves behind if it
returns none, and what `esp_websocket_client_destroy` releases. -/
namespace WebsocketInit

open WebsocketMemory WebsocketDangling WebsocketOwnership OwnedBlocks

variable {A B C : Books} {g : Grants} {keeps granted : Bool} {s : Slot} {f : Field} {v : Block}
  {t : Text} {o : Option Text} {Q : Unit → Books → Prop} {E : Stop EspErr → Books → Prop}

/-! ## Destruction -/

structure Freed (A B : Books) (done : List Slot) : Prop where
  lost : B.lost = A.lost
  gone : ∀ s ∈ done, (B.status s).held = 0
  rest : ∀ s, s ∉ done → B.status s = A.status s

variable {done : List Slot}

theorem Freed.refl : Freed A A [] := ⟨rfl, nofun, fun _ _ => rfl⟩

theorem wp_free (h : Freed A B done) (hs : s ∉ done) (hsound : A.status s ≠ .dangling)
    (hQ : ∀ C, Freed A C (s :: done) → Q () C) : wp (release s) Q E B := by
  have hstatus := h.rest s hs
  have hfreed : ∀ C : Books, C.lost = B.lost → (C.status s).held = 0 →
      (∀ t, t ≠ s → C.status t = B.status t) → Freed A C (s :: done) := by
    intro C hlost hheld hother
    constructor
    · exact hlost.trans h.lost
    · intro t ht
      by_cases hts : t = s
      · rw [hts, hheld]
      · rw [hother t hts]
        exact h.gone t ((List.mem_cons.mp ht).resolve_left hts)
    · intro t ht
      rw [List.mem_cons, not_or] at ht
      exact (hother t ht.1).trans (h.rest t ht.2)
  apply wp_release
  · intro hnull
    exact hQ _ (hfreed B rfl (by simp [hnull]) fun _ _ => rfl)
  · intro v _
    apply hQ
    apply hfreed
    · rfl
    · simp
    · intro t ht
      simp [ht]
  · intro hd
    exact absurd (hstatus ▸ hd) hsound

theorem Freed.clear (h : Freed A B done) (hs : s ∈ done) : Freed A (B.assign s .null) done := by
  constructor
  · simp [h.gone s hs, h.lost]
  · intro t ht
    by_cases hts : t = s
    · simp [hts]
    · simpa [hts] using h.gone t ht
  · intro t ht
    have hts : t ≠ s := by
      rintro rfl
      exact ht hs
    simpa [hts] using h.rest t ht

theorem wp_destroyConfig (hsound : ∀ s, A.status s ≠ .dangling)
    (hfields : A.status .config = .null → ∀ f, A.status (.field f) = .null) (h : Freed A B done)
    (hc : .config ∉ done) (hf : ∀ f, .field f ∉ done)
    (hQ : ∀ C, Freed A C (.config :: (Field.all.reverse.map .field ++ done)) → Q () C) :
    wp destroyConfig Q E B := by
  have hconfig := h.rest .config hc
  apply wp_bind
  apply wp_isNull
  · intro hnull
    apply wp_pure
    apply hQ
    rw [hconfig] at hnull
    constructor
    · exact h.lost
    · intro s hs
      rcases List.mem_cons.mp hs with rfl | hs
      · simp [hconfig, hnull]
      · rcases List.mem_append.mp hs with hs | hs
        · obtain ⟨f, -, rfl⟩ := List.mem_map.mp hs
          simp [h.rest _ (hf f), hfields hnull f]
        · exact h.gone s hs
    · intro s hs
      refine h.rest s fun hd => hs ?_
      exact List.mem_cons_of_mem _ (List.mem_append_right _ hd)
  · intro hnot
    have hloop : wp (Field.all.forM fun f => release (.field f))
        (fun _ C => Freed A C (Field.all.reverse.map .field ++ done)) E B := by
      apply wp_forM fun pre C => Freed A C (pre.reverse.map Slot.field ++ done)
      · intro pre x post C hall hC
        apply wp_free hC ?_ (hsound _)
        · intro D hD
          simpa using hD
        · have hnodup : Field.all.Nodup := by decide
          rw [hall] at hnodup
          have hx : x ∉ pre := fun hx =>
            (List.nodup_append.mp hnodup).2.2 x hx x List.mem_cons_self rfl
          simpa [hf x] using hx
      · exact h
    have hcleared : ∀ C, Freed A C (Field.all.reverse.map .field ++ done) →
        wp (Field.all.forM fun f => clear (.field f))
          (fun _ D => Freed A D (Field.all.reverse.map .field ++ done)) E C := by
      intro C hC
      apply wp_forM fun _ D => Freed A D (Field.all.reverse.map Slot.field ++ done)
      · intro pre x post D hall hD
        apply wp_clear
        exact hD.clear (List.mem_append_left _ (by simp [Field.mem_all]))
      · exact hC
    apply wp_bind
    apply wp_mono hloop
    · intro _ C hC
      apply wp_bind
      apply wp_mono (hcleared C hC)
      · intro _ D hD
        apply wp_bind
        apply wp_free hD (by simp [hc]) (hsound _)
        intro F hF
        apply wp_clear
        exact hQ _ (hF.clear List.mem_cons_self)
      · intro _ _ he
        exact he
    · intro _ _ he
      exact he

/-- Without a lock `esp_websocket_client_destroy` does not come to its end. -/
theorem wp_destroy (hsound : ∀ s, A.status s ≠ .dangling)
    (hfields : A.status .config = .null → ∀ f, A.status (.field f) = .null)
    (hinfo : A.status .userInfo = .null) (hdigest : A.status .digest = .null)
    (hfault : A.status .lock = .null → ∀ B, E .fault B)
    (hQ : A.status .lock ≠ .null → ∀ B, B.lost = A.lost → (∀ s, (B.status s).held = 0) → Q () B) :
    wp destroy Q E A := by
  apply wp_bind
  apply wp_free Freed.refl (by simp) (hsound _)
  intro B hB
  apply wp_bind
  apply wp_free hB (by simp) (hsound _)
  intro B hB
  apply wp_bind
  apply wp_destroyConfig hsound hfields hB (by simp) (by simp)
  intro B hB
  apply wp_bind
  have hlock : B.status .lock = A.status .lock := hB.rest .lock (by simp)
  apply wp_isNull
  · intro hnull
    exact wp_throw (hfault (hlock ▸ hnull) B)
  · intro hnot
    apply wp_bind
    apply wp_free hB (by simp) (hsound _)
    intro B hB
    apply wp_bind
    apply wp_free hB (by simp) (hsound _)
    intro B hB
    apply wp_bind
    apply wp_free hB (by simp) (hsound _)
    intro B hB
    apply wp_bind
    apply wp_free hB (by simp) (hsound _)
    intro B hB
    apply wp_bind
    apply wp_free hB (by simp) (hsound _)
    intro B hB
    apply wp_free hB (by simp) (hsound _)
    intro B hB
    apply hQ (hlock ▸ hnot) B hB.lost
    intro s
    cases s with
    | userInfo =>
      rw [hB.rest .userInfo (by simp), hinfo]
      rfl
    | digest =>
      rw [hB.rest .digest (by simp), hdigest]
      rfl
    | field f => exact hB.gone _ (by simp [Field.mem_all])
    | _ => exact hB.gone _ (by simp)

/-! ## Initialisation -/

variable {parse : Text → Option ParsedUrl} {encode : Text → Text} {config : InitConfig}
  {leak : Multiset Block}

/-- What can be destroyed, with `leak` lost. -/
structure Sound (A : Books) (leak : Multiset Block) : Prop where
  sound : ∀ s, A.status s ≠ .dangling
  strings : ∀ f, IsString (A.status (.field f))
  info : A.status .userInfo = .null
  digest : A.status .digest = .null
  fields : A.status .config = .null → ∀ f, A.status (.field f) = .null
  lost : A.lost = leak

theorem Sound.set (h : Sound A leak) (hs : ∀ f, s ≠ .field f) (hi : s ≠ .userInfo)
    (hd : s ≠ .digest) (v : Block) : Sound (A.set s (.holds v)) leak := by
  constructor
  · intro t
    by_cases ht : t = s
    · simp [ht]
    · simpa [ht] using h.sound t
  · intro f
    simpa [(hs f).symm] using h.strings f
  · simpa [hi.symm] using h.info
  · simpa [hd.symm] using h.digest
  · intro hc f
    have hc' : Slot.config ≠ s := by
      rintro rfl
      simp at hc
    simp only [Account.set_status, if_neg hc'] at hc
    simpa [(hs f).symm] using h.fields hc f
  · exact h.lost

theorem Sound.restrung (h : Sound A leak) (hc : A.status .config ≠ .null) {more : Multiset Block}
    (hB : Restrung A B more) : Sound B (leak + more) := by
  have hother : ∀ s, (∀ f, s ≠ .field f) → B.status s = A.status s := hB.others
  constructor
  · intro s
    by_cases hs : ∃ f, s = .field f
    · obtain ⟨f, rfl⟩ := hs
      exact hB.sound f
    · rw [hother s fun f hf => hs ⟨f, hf⟩]
      exact h.sound s
  · exact hB.strings
  · exact (hother _ (by simp)).trans h.info
  · exact (hother _ (by simp)).trans h.digest
  · intro hnull
    exact absurd ((hother _ (by simp)).symm.trans hnull) hc
  · rw [hB.lost, h.lost]

theorem wp_allocNew (hs : A.status s = .null)
    (hyes : granted = true → Q () (A.set s (.holds v)))
    (hno : granted = false → E (.failed .noMem) A) : wp (allocChecked granted s v) Q E A := by
  apply wp_allocChecked
  · intro hg
    rw [Account.assign_eq_set _ (by simp [hs])]
    exact hyes hg
  · intro hg
    rw [Account.assign_eq_set _ (by simp [hs]), Account.set_self _ hs]
    exact hno hg

def transportScheme : Transport → Option Text
  | .unknown => none
  | .overTcp => some wsOverTcpScheme
  | .overSsl => some wsOverTlsScheme

/-! The account along `esp_websocket_client_init`, place by place. -/

def opened : Books where
  status := fun s => if s = .client ∨ s = .eventHandle then .holds .object else .null
  lost := 0
  vars := 0

def named (config : InitConfig) : Books :=
  if config.ifName then opened.set .ifName (.holds .object) else opened

def locked (config : InitConfig) : Books := (named config).set .lock (.holds .object)

def based (config : InitConfig) : Books :=
  copied ((locked config).set .config (.holds .object)) .scheme (transportScheme config.transport)

def addressed (parse : Text → Option ParsedUrl) (config : InitConfig) : Books :=
  match config.uri with
  | none => based config
  | some uri => (parse uri).elim (based config) (located (based config) uri)

def settled (encode : Text → Text) (config : InitConfig) (A : Books) : Books :=
  let B := configured encode A config
  if B.status (.field .scheme) = .null then B.set (.field .scheme) (.holds (.text wsOverTcpScheme))
  else B

def ready (encode : Text → Text) (config : InitConfig) (A : Books) : Books :=
  let size := WebsocketClient.bufferSize config.toUserConfig
  (((settled encode config A).set .rxBuffer (.holds (.buffer size))).set .txBuffer
    (.holds (.buffer size))).set .statusBits (.holds .object)

theorem opened_sound : Sound opened 0 := by
  constructor
  · intro s
    simp only [opened]
    split <;> simp
  · intro f
    exact .inl rfl
  · rfl
  · rfl
  · intro _ _
    rfl
  · rfl

theorem named_sound (config : InitConfig) : Sound (named config) 0 := by
  unfold named
  split
  · exact opened_sound.set (by simp) (by simp) (by simp) _
  · exact opened_sound

theorem locked_sound (config : InitConfig) : Sound (locked config) 0 :=
  (named_sound config).set (by simp) (by simp) (by simp) _

theorem based_sound (config : InitConfig) : Sound (based config) 0 := by
  have hconfig : Sound ((locked config).set .config (.holds .object)) 0 :=
    (locked_sound config).set (by simp) (by simp) (by simp) _
  have hscheme := (Restrung.refl hconfig.strings).copied .scheme (transportScheme config.transport)
  have := hconfig.restrung (by simp) hscheme
  rwa [add_zero] at this

def lockMissing (g : Grants) (config : InitConfig) : Bool :=
  (config.ifName && !g .ifName) || !g .lock

def opens (g : Grants) : Bool := g .client && g .eventHandle

def reachesUri (g : Grants) (config : InitConfig) : Bool :=
  opens g && !lockMissing g config && g .config &&
    ((transportScheme config.transport).isNone || g .transportScheme)

/-- `asprintf` keeps a pointer to the scheme of the transport. -/
def InitLapses (keeps : Bool) (parse : Text → Option ParsedUrl) (g : Grants)
    (config : InitConfig) : Prop :=
  reachesUri g config = true ∧ ∃ uri, config.uri = some uri ∧
    Lapses keeps parse g uri (fun f => f = .scheme ∧ config.transport ≠ .unknown) .scheme

def hostReplaced (parse : Text → Option ParsedUrl) (config : InitConfig) : Multiset Block :=
  if config.host.isSome then
    (config.uri.bind fun uri => (parse uri).bind (urlHost uri)).elim 0 fun t => {.text t}
  else 0

def initLost (parse : Text → Option ParsedUrl) (g : Grants) (config : InitConfig) :
    Multiset Block :=
  if reachesUri g config then
    match config.uri with
    | none => 0
    | some uri => if uriTaken parse g uri then hostReplaced parse config else uriLost parse g uri
  else 0

/-- From the configuration on. -/
theorem wp_finish (hA : Sound A 0) (hconfig : A.status .config ≠ .null)
    (hnone : ∀ s, s = .errormsgBuffer ∨ s = .rxBuffer ∨ s = .txBuffer ∨ s = .statusBits →
      A.status s = .null) (hvars : A.vars = 0)
    (hyes : Sound (ready encode config A) (hostLost A config) → Q () (ready encode config A))
    (hno : Short g → ∀ B, Sound B (hostLost A config) → B.status .lock = A.status .lock →
      E (.failed .noMem) B) :
    wp (do
      setConfig g encode config
      setDefaultScheme keeps g
      allocBuffers g (WebsocketClient.bufferSize config.toUserConfig)) Q E A := by
  have hfail : Short g → ∀ B, Restrung A B (hostLost A config) → E (.failed .noMem) B := by
    intro hshort B hB
    apply hno hshort B ?_ (hB.others .lock (by simp))
    have := hA.restrung hconfig hB
    rwa [zero_add] at this
  apply wp_bind
  have hconfigured : Restrung A (configured encode A config) _ := configured_restrung hA.strings
  apply wp_setConfig hA.info hA.digest hA.strings ?_ hfail
  -- the buffers come after the last string
  have hbuffers : ∀ B, Restrung A B (hostLost A config) → B = settled encode config A →
      wp (allocBuffers g (WebsocketClient.bufferSize config.toUserConfig)) Q E B := by
    intro B hB hsettled
    have hnull : ∀ s, s = .errormsgBuffer ∨ s = .rxBuffer ∨ s = .txBuffer ∨ s = .statusBits →
        B.status s = .null := by
      intro s hs
      rw [hB.others s, hnone s hs]
      rintro f rfl
      simp at hs
    have hsound : Sound B (hostLost A config) := by
      have := hA.restrung hconfig hB
      rwa [zero_add] at this
    have hlock : B.status .lock = A.status .lock := hB.others .lock (by simp)
    have hclear : (B.assign .errormsgBuffer .null).setVars (fun _ => 0) = B := by
      rw [Account.assign_eq_set _ (by simp [hnull]), Account.set_self _ (by simp [hnull])]
      exact Account.ext rfl rfl (hvars.symm.trans hB.vars.symm)
    apply wp_bind
    apply wp_clear
    apply wp_bind
    apply wp_setVars
    rw [hclear]
    apply wp_bind
    apply wp_allocNew (by simp [hnull])
    · intro _
      have hrx := hsound.set (s := .rxBuffer) (by simp) (by simp) (by simp)
        (.buffer (WebsocketClient.bufferSize config.toUserConfig))
      apply wp_bind
      apply wp_allocNew (by simp [hnull])
      · intro _
        have htx := hrx.set (s := .txBuffer) (by simp) (by simp) (by simp)
          (.buffer (WebsocketClient.bufferSize config.toUserConfig))
        apply wp_allocNew (by simp [hnull])
        · intro _
          have hbits := htx.set (s := .statusBits) (by simp) (by simp) (by simp) .object
          subst hsettled
          exact hyes hbits
        · intro hg
          exact hno ⟨_, hg⟩ _ htx (by simp [hlock])
      · intro hg
        exact hno ⟨_, hg⟩ _ hrx (by simp [hlock])
    · intro hg
      exact hno ⟨_, hg⟩ _ hsound hlock
  apply wp_bind
  apply wp_bind
  apply wp_isNull
  · intro hnull
    apply wp_printChecked
    · rw [hnull]
      rfl
    · intro _
      apply hbuffers
      · exact hconfigured.set .scheme (.inr ⟨_, rfl⟩)
      · simp [settled, hnull]
    · intro _ _ hnot
      exact absurd hnull hnot
    · intro hg _
      exact hfail ⟨_, hg⟩ _ (hconfigured.set .scheme (.inl rfl))
  · intro hnot
    apply wp_pure
    apply hbuffers
    · exact hconfigured
    · simp [settled, hnot]

theorem addressed_restrung (parse : Text → Option ParsedUrl) (config : InitConfig) :
    Restrung (based config) (addressed parse config) 0 := by
  have hstart := Restrung.refl (based_sound config).strings
  cases huri : config.uri with
  | none => simpa [addressed, huri] using hstart
  | some uri =>
    cases hparse : parse uri with
    | none => simpa [addressed, huri, hparse] using hstart
    | some u => simpa [addressed, huri, hparse] using hstart.located uri u

theorem based_field : (based config).status (.field f) =
    if f = .scheme then (transportScheme config.transport).elim .null (fun t => .holds (.text t))
    else .null := by
  have hnull : (locked config).status (.field f) = .null := by
    simp only [locked, named]
    split <;> simp [opened]
  by_cases hf : f = .scheme
  · subst hf
    cases ho : transportScheme config.transport <;> simp [based, ho, hnull]
  · simp [based, hnull, hf]

theorem based_held : isHeld (based config) =
    fun f => decide (f = .scheme ∧ config.transport ≠ .unknown) := by
  funext f
  rw [isHeld, based_field]
  by_cases hf : f = .scheme
  · cases ht : config.transport <;> simp [hf, transportScheme]
  · simp [hf]

theorem addressed_host : ((addressed parse config).status (.field .host)).held =
    (config.uri.bind fun uri => (parse uri).bind (urlHost uri)).elim 0 fun t => {.text t} := by
  cases huri : config.uri with
  | none => simp [addressed, huri, based_field]
  | some uri =>
    cases hparse : parse uri with
    | none => simp [addressed, huri, hparse, based_field]
    | some u =>
      have hprinted : ((printed (based config) (urlStrings uri u)).status (.field .host)).held =
          (urlHost uri u).elim 0 fun t => {.text t} := by
        cases hhost : urlHost uri u with
        | none => simp [printed, urlStrings, hhost, based_field]
        | some t => simp [printed, urlStrings, hhost]
      simp only [addressed, huri, hparse, Option.elim_some, Option.bind_some, located]
      cases urlUserInfo uri u with
      | none => exact hprinted
      | some info => simpa [credited] using hprinted

theorem based_other (hs : s = .errormsgBuffer ∨ s = .rxBuffer ∨ s = .txBuffer ∨
    s = .statusBits) : (based config).status s = .null := by
  have hnamed : (named config).status s = .null := by
    unfold named
    rcases hs with rfl | rfl | rfl | rfl <;> split <;> simp [opened]
  rcases hs with rfl | rfl | rfl | rfl <;> simpa [based, locked] using hnamed

theorem based_vars : (based config).vars = 0 := by
  simp only [based, locked, named, copied_vars, Account.set_vars]
  split <;> rfl

theorem based_lock : (based config).status .lock ≠ .null := by simp [based, locked]

theorem based_config : (based config).status .config ≠ .null := by simp [based]

theorem initLost_unreached (h : reachesUri g config = false) : initLost parse g config = 0 := by
  rw [initLost, h]
  rfl

theorem not_initLapses (h : reachesUri g config = false) :
    ¬ InitLapses keeps parse g config := by
  rintro ⟨hreach, -⟩
  rw [h] at hreach
  cases hreach

/-- Why a URI is not taken. -/
theorem uri_denied {uri : Text} (h : uriTaken parse g uri = false) :
    parse uri = none ∨ Short g := by
  cases hu : parse uri with
  | none => exact .inl rfl
  | some u =>
    right
    by_contra hgranted
    have hall : ∀ site, g site = true := by
      intro site
      by_contra hsite
      exact hgranted ⟨site, by simpa using hsite⟩
    have hfirst : firstRefused g uri u = none := by simp [firstRefused, refused, hall]
    have hinfo : userInfoGranted g (urlUserInfo uri u) = true := by
      cases urlUserInfo uri u <;> simp [userInfoGranted, credentialsGranted, hall]
    simp [uriTaken, hu, hfirst, hinfo] at h

theorem hostLost_addressed : hostLost (addressed parse config) config =
    hostReplaced parse config := by
  rw [hostLost, addressed_host, hostReplaced]

def Denied (parse : Text → Option ParsedUrl) (g : Grants) (config : InitConfig) : Prop :=
  Short g ∨ ∃ uri, config.uri = some uri ∧ parse uri = none

/-- From the URI on. -/
theorem wp_address (hreach : reachesUri g config = true)
    (hno : Denied parse g config → ¬ InitLapses keeps parse g config → ∀ e B,
      Sound B (initLost parse g config) → B.status .lock ≠ .null → E (.failed e) B)
    (hyes : ¬ InitLapses keeps parse g config →
      Sound (ready encode config (addressed parse config)) (initLost parse g config) →
        Q () (ready encode config (addressed parse config)))
    (hlapse : InitLapses keeps parse g config → (∀ B, Doomed .scheme B → Q () B) ∧
      ∀ e B, e = .fault ∨ Doomed .scheme B → E e B) :
    wp (do
      setInitialUri keeps g parse config.uri
      setConfig g encode config
      setDefaultScheme keeps g
      allocBuffers g (WebsocketClient.bufferSize config.toUserConfig)) Q E (based config) := by
  have hsound := based_sound config
  have haddressed := addressed_restrung parse config
  have hrest : ¬ InitLapses keeps parse g config →
      initLost parse g config = hostReplaced parse config →
      wp (do
        setConfig g encode config
        setDefaultScheme keeps g
        allocBuffers g (WebsocketClient.bufferSize config.toUserConfig)) Q E
        (addressed parse config) := by
    intro hnot hlost
    have hsound' := hsound.restrung based_config haddressed
    have hlock := haddressed.others .lock (by simp)
    apply wp_finish
    · exact hsound'
    · rw [haddressed.others .config (by simp)]
      exact based_config
    · intro s hs
      rw [haddressed.others s, based_other hs]
      rintro f rfl
      simp at hs
    · rw [haddressed.vars, based_vars]
    · rw [hostLost_addressed, ← hlost]
      exact hyes hnot
    · rw [hostLost_addressed, ← hlost]
      intro hshort B hB hl
      exact hno (.inl hshort) hnot .noMem B hB (by rw [hl, hlock]; exact based_lock)
  apply wp_bind
  cases huri : config.uri with
  | none =>
    have hnot : ¬ InitLapses keeps parse g config := by
      rintro ⟨-, uri, h, -⟩
      rw [huri] at h
      cases h
    have hlost : initLost parse g config = hostReplaced parse config := by
      simp [initLost, hreach, huri, hostReplaced]
    have := hrest hnot hlost
    rw [addressed, huri] at this
    exact wp_pure this
  | some uri =>
    have hlapses : ∀ f, Lapses keeps parse g uri (isHeld (based config)) f →
        f = .scheme ∧ InitLapses keeps parse g config := by
      intro f h
      rw [based_held] at h
      obtain ⟨hk, hheld, hu⟩ := h
      obtain ⟨rfl, ht⟩ := of_decide_eq_true hheld
      exact ⟨rfl, hreach, uri, huri, hk, hheld, hu⟩
    have hlapses' : InitLapses keeps parse g config →
        Lapses keeps parse g uri (isHeld (based config)) .scheme := by
      rintro ⟨-, uri', huri', h⟩
      cases huri.symm.trans huri'
      rwa [based_held]
    apply wp_setUri hsound.info based_config hsound.strings
    · intro htaken u hu
      have hnot : ¬ InitLapses keeps parse g config := by
        intro h
        obtain ⟨-, -, v, hv, hf⟩ := hlapses' h
        cases hu.symm.trans hv
        simp [uriTaken, hu, hf] at htaken
      have hlost : initLost parse g config = hostReplaced parse config := by
        simp [initLost, hreach, huri, htaken]
      have := hrest hnot hlost
      simpa only [addressed, huri, hu, Option.elim_some] using this
    · intro htaken hnot e B hB
      apply hno
      · rcases uri_denied htaken with hparse | hshort
        · exact .inr ⟨uri, huri, hparse⟩
        · exact .inl hshort
      · intro h
        exact hnot .scheme (hlapses' h)
      · have := hsound.restrung based_config hB
        rw [zero_add] at this
        simpa [initLost, hreach, huri, htaken] using this
      · rw [hB.others .lock (by simp)]
        exact based_lock
    · intro f hf
      obtain ⟨rfl, h⟩ := hlapses f hf
      obtain ⟨hq, he⟩ := hlapse h
      refine ⟨?_, he⟩
      intro B hB
      have hkeeps : Keeps (Doomed .scheme) (do
          setConfig g encode config
          setDefaultScheme keeps g
          allocBuffers g (WebsocketClient.bufferSize config.toUserConfig)) := by
        apply Keeps.bind doomed_setConfig
        intro _
        exact Keeps.bind doomed_setDefaultScheme fun _ => doomed_allocBuffers
      exact wp_mono (hkeeps B hB) (fun _ => hq) he

theorem setTransport_eq (transport : Transport) : setTransport keeps g transport =
    match transportScheme transport with
    | none => pure ()
    | some t => printChecked (g .transportScheme) (.field .scheme) keeps t := by
  cases transport <;> rfl

/-- From the event loop on. -/
theorem wp_setUp (hopen : opens g = true)
    (hlock : lockMissing g config = true → ∀ e B, Sound B 0 → B.status .lock = .null →
      E (.failed e) B)
    (hno : Denied parse g config → lockMissing g config = false →
      ¬ InitLapses keeps parse g config → ∀ e B,
      Sound B (initLost parse g config) → B.status .lock ≠ .null → E (.failed e) B)
    (hyes : lockMissing g config = false → ¬ InitLapses keeps parse g config →
      Sound (ready encode config (addressed parse config)) (initLost parse g config) →
        Q () (ready encode config (addressed parse config)))
    (hlapse : InitLapses keeps parse g config → (∀ B, Doomed .scheme B → Q () B) ∧
      ∀ e B, e = .fault ∨ Doomed .scheme B → E e B) :
    wp (setUp keeps g parse encode config) Q E opened := by
  have hnull : ∀ s, s = .lock ∨ s = .config ∨ (∃ f, s = .field f) →
      (named config).status s = .null := by
    intro s hs
    unfold named
    rcases hs with rfl | rfl | ⟨f, rfl⟩ <;> split <;> simp [opened]
  have hnamed : (config.ifName && !g .ifName) = false → wp (do
      allocChecked (g .lock) .lock .object
      allocChecked (g .config) .config .object
      setTransport keeps g config.transport
      setInitialUri keeps g parse config.uri
      setConfig g encode config
      setDefaultScheme keeps g
      allocBuffers g (WebsocketClient.bufferSize config.toUserConfig)) Q E (named config) := by
    intro hname
    apply wp_bind
    apply wp_allocNew (hnull _ (by simp))
    · intro hl
      have hmissing : lockMissing g config = false := by rw [lockMissing, hname, hl]; rfl
      have hfail : Short g → reachesUri g config = false → ∀ B, Sound B 0 →
          B.status .lock ≠ .null → E (.failed .noMem) B := by
        intro hshort hreach B hB
        apply hno (.inl hshort) hmissing (not_initLapses hreach)
        rwa [initLost_unreached hreach]
      change wp _ Q E (locked config)
      apply wp_bind
      apply wp_allocNew (by simp [locked, hnull])
      · intro hc
        apply wp_bind
        have haddress : reachesUri g config = true → wp (do
            setInitialUri keeps g parse config.uri
            setConfig g encode config
            setDefaultScheme keeps g
            allocBuffers g (WebsocketClient.bufferSize config.toUserConfig)) Q E
            (based config) :=
          fun hreach => wp_address hreach (fun hd => hno hd hmissing) (hyes hmissing) hlapse
        rw [setTransport_eq]
        cases ht : transportScheme config.transport with
        | none =>
          have := haddress (by simp [reachesUri, hopen, hmissing, hc, ht])
          rw [based, ht] at this
          exact wp_pure this
        | some t =>
          have hscheme : ((locked config).set .config (.holds .object)).status (.field .scheme) =
              .null := by simp [locked, hnull]
          apply wp_printChecked
          · rw [hscheme]
            rfl
          · intro hg
            have := haddress (by simp [reachesUri, hopen, hmissing, hc, hg])
            rwa [based, ht] at this
          · intro _ _ hnot
            exact absurd hscheme hnot
          · intro hg _
            rw [Account.set_self _ hscheme]
            apply hfail ⟨_, hg⟩
            · simp [reachesUri, hg, ht]
            · exact (locked_sound config).set (by simp) (by simp) (by simp) _
            · simp [locked]
      · intro hc
        exact hfail ⟨_, hc⟩ (by simp [reachesUri, hc]) _ (locked_sound config) (by simp [locked])
    · intro hl
      refine hlock (by simp [lockMissing, hl]) .noMem _ (named_sound config) ?_
      exact hnull _ (by simp)
  apply wp_bind
  cases hif : config.ifName with
  | false =>
    have := hnamed (by rw [hif]; rfl)
    rw [named, hif] at this
    exact wp_pure this
  | true =>
    apply wp_allocNew rfl
    · intro hg
      have := hnamed (by rw [hif, hg]; rfl)
      rwa [named, hif] at this
    · intro hg
      exact hlock (by simp [lockMissing, hif, hg]) .noMem _ opened_sound rfl

def blank : Books := ⟨fun _ => .null, 0, 0⟩

/-- `esp_websocket_client_init` ends with a client, with nothing but what is lost, or with a
fault. -/
theorem wp_init {R : Bool → Books → Prop} {E : Stop EspErr → Books → Prop}
    (hready : opens g = true → lockMissing g config = false → ¬ InitLapses keeps parse g config →
      Sound (ready encode config (addressed parse config)) (initLost parse g config) →
        R true (ready encode config (addressed parse config)))
    (hnone : Denied parse g config → (opens g = true → lockMissing g config = false) →
      ¬ InitLapses keeps parse g config → ∀ B : Books, B.lost = initLost parse g config →
        (∀ s, (B.status s).held = 0) → R false B)
    (hlock : opens g = true → lockMissing g config = true → ∀ B, E .fault B)
    (hlapse : InitLapses keeps parse g config → (∀ B, Doomed .scheme B → R true B) ∧
      ∀ B, E .fault B) :
    wp (init keeps g parse encode config) R E blank := by
  have hunopened : Short g → opens g = false → ∀ B : Books, B.lost = 0 →
      (∀ s, (B.status s).held = 0) → R false B := by
    intro hshort hopen B hlost hheld
    have hreach : reachesUri g config = false := by simp [reachesUri, hopen]
    apply hnone (.inl hshort)
    · intro h
      rw [hopen] at h
      cases h
    · exact not_initLapses hreach
    · rw [hlost, initLost_unreached hreach]
    · exact hheld
  unfold init
  cases hclient : g .client with
  | false =>
    apply wp_pure
    exact hunopened ⟨_, hclient⟩ (by simp [opens, hclient]) blank rfl fun _ => rfl
  | true =>
    apply wp_bind
    apply wp_acquire
    cases hevent : g .eventHandle with
    | false =>
      apply wp_bind
      apply wp_release
      · intro hs
        simp at hs
      · intro v _
        apply wp_pure
        apply hunopened ⟨_, hevent⟩ (by simp [opens, hevent])
        · simp [blank]
        · intro s
          by_cases hs : s = .client
          · simp [hs]
          · simp [hs, blank]
      · intro hs
        simp at hs
    | true =>
      have hopen : opens g = true := by simp [opens, hclient, hevent]
      apply wp_bind
      apply wp_acquire
      have hopened : (blank.assign .client (.holds .object)).assign .eventHandle
          (.holds .object) = opened := by
        apply Account.ext
        · funext s
          by_cases h : s = .eventHandle
          · simp [opened, h]
          · by_cases h' : s = .client
            · simp [opened, h']
            · simp [opened, h, h', blank]
        · simp [opened, blank]
        · rfl
      rw [hopened]
      apply wp_recover
      apply wp_bind
      -- a failure of any stage is answered by destroying the client
      have hgiveUp : ∀ {B leak}, Sound B leak →
          (B.status .lock = .null → ∀ C, E .fault C) →
          (B.status .lock ≠ .null → ∀ C : Books, C.lost = leak →
            (∀ s, (C.status s).held = 0) → R false C) →
          wp (do destroy; pure false) R E B := by
        intro B leak hB hfault hover
        apply wp_bind
        apply wp_destroy hB.sound hB.fields hB.info hB.digest hfault
        intro hl C hlost hheld
        exact wp_pure (hover hl C (hlost.trans hB.lost) hheld)
      apply wp_setUp hopen
      · intro hmissing e B hB hnull
        apply hgiveUp hB
        · intro _
          exact hlock hopen hmissing
        · intro hl
          exact absurd hnull hl
      · intro hdenied hmissing hnot e B hB hl
        apply hgiveUp hB
        · intro hnull
          exact absurd hnull hl
        · intro _ C hlost hheld
          exact hnone hdenied (fun _ => hmissing) hnot C hlost hheld
      · intro hmissing hnot hsound
        exact wp_pure (hready hopen hmissing hnot hsound)
      · intro h
        obtain ⟨hdoomed, hfault⟩ := hlapse h
        constructor
        · intro B hB
          exact wp_pure (hdoomed B hB)
        · intro e B hB
          cases e with
          | fault => exact hfault B
          | failed e =>
            apply wp_bind
            exact wp_destroy_doomed (hB.resolve_left nofun) hfault

end WebsocketInit
