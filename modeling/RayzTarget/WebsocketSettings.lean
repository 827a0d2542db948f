import RayzTarget.WebsocketLifetime

/-! # The settings of a websocket client

What the strings of a client say, as a plain record of settings, and that the client's memory
holds them: a configuration overrides the URI it comes with, but for the scheme, where the URI
overrides the configured transport; a later URI overrides both. -/
namespace WebsocketSettings

open WebsocketMemory WebsocketDangling WebsocketOwnership WebsocketInit WebsocketLifetime
  OwnedBlocks EventRuns

abbrev Settings := Field → Option Text

def worth : Option Text → Status Block
  | none => .null
  | some t => .holds (.text t)

namespace Settings

def locate (S : Settings) (uri : Text) (u : ParsedUrl) : Settings
  | .scheme => (urlScheme uri u).or (S .scheme)
  | .host => (urlHost uri u).or (S .host)
  | .path => (urlPath uri u).or (S .path)
  | .username => ((urlUserInfo uri u).map usernameOf).or (S .username)
  | .password => ((urlUserInfo uri u).bind passwordOf).or (S .password)
  | f => S f

def authorization (encode : Text → Text) (username password : Option Text) : Option Text :=
  username.bind fun u => password.map fun p => wsHttpBasicAuth ++ encode (u ++ ':' :: p)

def configure (encode : Text → Text) (S : Settings) (config : InitConfig) : Settings
  | .uri => config.uri.or (S .uri)
  | .host => config.host.or (S .host)
  | .path => config.path.or (S .path)
  | .scheme => (S .scheme).or (some wsOverTcpScheme)
  | .username => config.username.or (S .username)
  | .password => config.password.or (S .password)
  | .auth => (authorization encode (config.username.or (S .username))
      (config.password.or (S .password))).or (S .auth)
  | .subprotocol => config.subprotocol.or (S .subprotocol)
  | .userAgent => config.userAgent.or (S .userAgent)
  | .headers => config.headers.or (S .headers)

def ofTransport (transport : Transport) : Settings := fun f =>
  if f = .scheme then transportScheme transport else none

def ofUri (parse : Text → Option ParsedUrl) (S : Settings) (uri : Text) : Settings :=
  (parse uri).elim S (S.locate uri)

def initial (parse : Text → Option ParsedUrl) (encode : Text → Text) (config : InitConfig) :
    Settings :=
  configure encode (config.uri.elim (ofTransport config.transport)
    (ofUri parse (ofTransport config.transport))) config

/-- The settings after a call. The authorization stays what it was. -/
def next (parse : Text → Option ParsedUrl) (S : Settings) : Call → Settings
  | .setUri uri _ => ofUri parse S uri
  | .error _ _ => S

end Settings

def Strings (A : Books) (S : Settings) : Prop := ∀ f, A.status (.field f) = worth (S f)

variable {A B : Books} {S : Settings} {g : Grants} {keeps : Bool} {f : Field} {o : Option Text}
  {parse : Text → Option ParsedUrl} {encode : Text → Text} {config : InitConfig} {uri : Text}
  {u : ParsedUrl} {size : ℕ} {leak : Multiset Block} {c : Call}

theorem Strings.copied (h : Strings A S) (f : Field) (o : Option Text) :
    Strings (copied A f o) (Function.update S f (o.or (S f))) := by
  intro f'
  by_cases hf : f' = f
  · subst hf
    cases o with
    | none => simpa [worth] using h f'
    | some t => simp [worth]
  · simpa [hf] using h f'

theorem Strings.congr {T : Settings} (h : Strings A S) (hT : ∀ f, T f = S f) : Strings A T := by
  intro f
  rw [hT f]
  exact h f

theorem Strings.located (h : Strings A S) (uri : Text) (u : ParsedUrl) :
    Strings (located A uri u) (S.locate uri u) := by
  have hprinted := ((h.copied .scheme (urlScheme uri u)).copied .host (urlHost uri u)).copied .path
    (urlPath uri u)
  unfold WebsocketOwnership.located
  cases ho : urlUserInfo uri u with
  | none =>
    apply hprinted.congr
    intro f
    cases f <;> simp [Settings.locate, ho]
  | some info =>
    have hpassword := hprinted.copied .password (passwordOf info)
    apply (hpassword.copied .username (some (usernameOf info))).congr
    intro f
    cases f <;> simp [Settings.locate, ho]

theorem Strings.authorized (h : Strings A S) (encode : Text → Text) :
    Strings (authorized encode A) (Function.update S .auth
      ((Settings.authorization encode (S .username) (S .password)).or (S .auth))) := by
  have heq : WebsocketOwnership.authorized encode A =
      WebsocketOwnership.copied A .auth
        (Settings.authorization encode (S .username) (S .password)) := by
    unfold WebsocketOwnership.authorized
    rw [h .username, h .password]
    cases S .username <;> cases S .password <;> rfl
  rw [heq]
  exact h.copied .auth _

theorem Strings.hosted (h : Strings A S) (o : Option Text) :
    Strings (hosted A o) (Function.update S .host (o.or (S .host))) := by
  have hcopied := h.copied .host o
  cases o with
  | none => exact hcopied
  | some t => exact hcopied

theorem Strings.configured (h : Strings A S) (encode : Text → Text) (config : InitConfig) :
    Strings (configured encode A config)
      (Function.update (S.configure encode config) .scheme (S .scheme)) := by
  have hhost := h.hosted config.host
  have hcredentials := (hhost.copied .username config.username).copied .password config.password
  have hauth := hcredentials.authorized encode
  have hpath := (hauth.copied .uri config.uri).copied .path config.path
  have hagent := (hpath.copied .subprotocol config.subprotocol).copied .userAgent config.userAgent
  apply (hagent.copied .headers config.headers).congr
  intro f
  cases f <;> simp [Settings.configure]

/-- The scheme is given only where none is set. -/
theorem Strings.settled (h : Strings A S) (encode : Text → Text) (config : InitConfig) :
    Strings (settled encode config A) (S.configure encode config) := by
  have hconfigured := h.configured encode config
  have hscheme := hconfigured .scheme
  rw [Function.update_self] at hscheme
  unfold WebsocketInit.settled
  cases hs : S .scheme with
  | none =>
    rw [hs] at hscheme
    simp only [hscheme, worth, if_true]
    apply (hconfigured.copied .scheme (some wsOverTcpScheme)).congr
    intro f
    by_cases hf : f = .scheme
    · simp [hf, Settings.configure, hs]
    · simp [hf]
  | some t =>
    rw [hs] at hscheme
    simp only [hscheme, worth, reduceCtorEq, if_false]
    apply hconfigured.congr
    intro f
    by_cases hf : f = .scheme
    · simp [hf, Settings.configure, hs]
    · simp [hf]

theorem Strings.ready (h : Strings A S) (encode : Text → Text) (config : InitConfig) :
    Strings (ready encode config A) (S.configure encode config) := by
  intro f
  simpa [WebsocketInit.ready] using h.settled encode config f

theorem based_strings (config : InitConfig) :
    Strings (based config) (Settings.ofTransport config.transport) := by
  intro f
  rw [based_field, Settings.ofTransport]
  split
  · cases transportScheme config.transport <;> rfl
  · rfl

theorem addressed_strings (parse : Text → Option ParsedUrl) (config : InitConfig) :
    Strings (addressed parse config) (config.uri.elim (Settings.ofTransport config.transport)
      ((Settings.ofTransport config.transport).ofUri parse)) := by
  have hbased := based_strings config
  unfold addressed
  cases config.uri with
  | none => exact hbased
  | some uri =>
    simp only [Option.elim_some, Settings.ofUri]
    cases parse uri with
    | none => exact hbased
    | some u => exact hbased.located uri u

def Ample (g : Grants) : Prop := ∀ site, g site = true

theorem Ample.not_short (h : Ample g) : ¬ Short g := by
  rintro ⟨site, hsite⟩
  rw [h site] at hsite
  cases hsite

theorem Ample.uriTaken (h : Ample g) (hu : parse uri = some u) : uriTaken parse g uri = true := by
  by_contra hnot
  rcases uri_denied (Bool.eq_false_iff.mpr hnot) with hnone | hshort
  · rw [hu] at hnone
    cases hnone
  · exact h.not_short hshort

theorem Ample.not_lapses (h : Ample g) {held : Field → Bool} :
    ¬ Lapses keeps parse g uri held f := by
  rintro ⟨-, -, u, hu, hf⟩
  have htaken := h.uriTaken hu
  simp [WebsocketOwnership.uriTaken, hu, hf] at htaken

def Granted : Call → Prop
  | .setUri _ g => Ample g
  | .error _ _ => True

/-- A URI that cannot be parsed leaves the settings. -/
theorem perform_settings (h : Serving A size leak) (hS : Strings A S) (hc : Granted c) :
    wp (perform keeps parse c) (fun _ B => Serving B size leak ∧ Strings B (S.next parse c))
      (fun e B => e ≠ .fault ∧ Serving B size leak ∧ Strings B (S.next parse c)) A := by
  cases c with
  | setUri uri g =>
    have hample : Ample g := hc
    cases hu : parse uri with
    | none =>
      change wp (setUri keeps g parse uri) _ _ A
      unfold setUri
      rw [hu]
      apply wp_throw
      refine ⟨nofun, h, ?_⟩
      simpa [Settings.next, Settings.ofUri, hu] using hS
    | some u =>
      apply wp_setUri h.sound.info h.config h.sound.strings
      · intro _ v hv
        cases hu.symm.trans hv
        constructor
        · have := h.restrung ((Restrung.refl h.sound.strings).located uri u)
          rwa [add_zero] at this
        · simpa [Settings.next, Settings.ofUri, hu] using hS.located uri u
      · intro hnot
        rw [hample.uriTaken hu] at hnot
        cases hnot
      · intro f hf
        exact absurd hf hample.not_lapses
  | error needed g =>
    apply wp_error h
    · intro B hB hsame
      refine ⟨hB, fun f => ?_⟩
      rw [hsame f]
      exact hS f
    · intro B hB hsame
      refine ⟨nofun, hB, fun f => ?_⟩
      rw [hsame f]
      exact hS f

def Settled (S : Settings) (l : Lifetime) : Prop :=
  ∃ m A size leak, l = .alive m ∧ Shows m A ∧ Serving A size leak ∧ Strings A S

variable {l : Lifetime}

theorem settled_next (h : Settled S l) (hc : Granted c) :
    Settled (S.next parse c) (next keeps parse l c) := by
  obtain ⟨m, A, size, leak, rfl, hm, hA, hS⟩ := h
  apply next_of_wp hm (perform_settings hA hS hc)
  · rintro m' B hB ⟨hserving, hstrings⟩
    exact ⟨m', B, size, leak, rfl, hB, hserving, hstrings⟩
  · rintro e m' B hB ⟨-, hserving, hstrings⟩
    exact ⟨m', B, size, leak, rfl, hB, hserving, hstrings⟩
  · rintro B ⟨hne, -⟩
    exact absurd rfl hne

theorem settled_run (h : Settled S l) (cs : List Call) (hcs : ∀ c ∈ cs, Granted c) :
    Settled (cs.foldl (Settings.next parse) S) (run (next keeps parse) l cs) := by
  induction cs using List.reverseRecOn with
  | nil => exact h
  | append_singleton cs c ih =>
    rw [run_snoc, List.foldl_append]
    apply settled_next
    · exact ih fun d hd => hcs d (List.mem_append_left _ hd)
    · exact hcs c (by simp)

theorem created_settled (hg : Ample g)
    (huri : ∀ uri, config.uri = some uri → (parse uri).isSome) :
    Settled (Settings.initial parse encode config) (created keeps parse encode config g) := by
  have hdenied : ¬ Denied parse g config := by
    rintro (hshort | ⟨uri, hu, hnone⟩)
    · exact hg.not_short hshort
    · have := huri uri hu
      rw [hnone] at this
      cases this
  have hinit : wp (init keeps g parse encode config)
      (fun b B => b = true ∧
        Serving B (WebsocketClient.bufferSize config.toUserConfig) (initLost parse g config) ∧
        Strings B (Settings.initial parse encode config)) (fun _ _ => False) blank := by
    apply wp_init
    · intro _ _ _ hsound
      exact ⟨rfl, ready_serving hsound, (addressed_strings parse config).ready encode config⟩
    · intro h
      exact absurd h hdenied
    · intro _ hmissing
      simp [lockMissing, hg _] at hmissing
    · rintro ⟨-, uri, -, hlapse⟩
      exact absurd hlapse hg.not_lapses
  apply created_of_wp hinit
  · rintro m B hB ⟨-, hserving, hstrings⟩
    exact ⟨m, B, _, _, rfl, hB, hserving, hstrings⟩
  · rintro m B _ ⟨hfalse, -⟩
    cases hfalse
  · intro e B hfalse
    exact hfalse.elim

/-- While nothing is refused, the strings of a client say what its configuration and the URIs it
was given since say, the latest first; what cannot be parsed changes nothing. The authorization
is of the credentials that the client began with. -/
theorem settings_run (keeps : Bool) (encode : Text → Text) (hg : Ample g)
    (huri : ∀ uri, config.uri = some uri → (parse uri).isSome) (calls : List Call)
    (hcalls : ∀ c ∈ calls, Granted c) :
    ∃ m, run (next keeps parse) (created keeps parse encode config g) calls = .alive m ∧
      ∀ f, m.status (.field f) =
        worth (calls.foldl (Settings.next parse) (Settings.initial parse encode config) f) := by
  have hsettled : Settled _ (run (next keeps parse) (created keeps parse encode config g) calls) :=
    settled_run (created_settled hg huri) calls hcalls
  obtain ⟨m, A, size, leak, hm, hA, -, hS⟩ := hsettled
  refine ⟨m, hm, fun f => ?_⟩
  rw [hA.status]
  exact hS f

/-- A URI with other credentials, and one that cannot be parsed. -/
theorem settings_run_other_credentials :
    let encode : Text → Text := fun _ => ['d', 'T', 'p', 'w']
    let config := shortConfig none (some ['u']) (some ['p'])
    let calls := [.setUri ['w', 's', ':', '/', '/', 'v', ':', 'q', '@', 'b'] (fun _ => true),
      .setUri ['b'] (fun _ => true), .error 3 (fun _ => false)]
    ∃ m, run (next true parseShort) (created true parseShort encode config fun _ => true) calls =
        .alive m ∧ m.status (.field .host) = .holds (.text ['b']) ∧
      m.status (.field .username) = .holds (.text ['v']) ∧
      m.status (.field .auth) =
        .holds (.text ['B', 'a', 's', 'i', 'c', ' ', 'd', 'T', 'p', 'w']) := by
  intro encode config calls
  have hcalls : ∀ c ∈ calls, Granted c := by
    intro c hc
    simp only [calls, List.mem_cons, List.not_mem_nil, or_false] at hc
    rcases hc with rfl | rfl | rfl
    · exact fun _ => rfl
    · exact fun _ => rfl
    · trivial
  have huri : ∀ uri, config.uri = some uri → (parseShort uri).isSome := by
    intro uri h
    cases h
    rfl
  obtain ⟨m, hm, hstrings⟩ := settings_run true encode (fun _ => rfl) huri calls hcalls
  exact ⟨m, hm, hstrings .host, hstrings .username, hstrings .auth⟩

end WebsocketSettings
