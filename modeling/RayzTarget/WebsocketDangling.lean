import RayzTarget.WebsocketMemory

/-! # A string left dangling

Once a string was released and its pointer kept, nothing mends it: every call that comes upon the
string faults, every other leaves it, and `esp_websocket_client_destroy` releases it again. -/
namespace WebsocketDangling

open WebsocketMemory OwnedBlocks

variable {A B : Books} {g : Grants} {keeps granted : Bool} {s : Slot} {f : Field} {v : Block}
  {t : Text} {o : Option Text} {Q : Unit → Books → Prop} {E : Stop EspErr → Books → Prop}

/-- The string `f` was released and its pointer kept. -/
def Doomed (f : Field) (A : Books) : Prop :=
  A.status (.field f) = .dangling ∧ A.status .config ≠ .null

theorem Doomed.assign (h : Doomed f A) (hs : s ≠ .field f) (hc : s ≠ .config) (x : Status Block) :
    Doomed f (A.assign s x) := by
  constructor
  · simpa [hs.symm] using h.1
  · simpa [hc.symm] using h.2

theorem Doomed.set (h : Doomed f A) (hs : s ≠ .field f) (hc : s ≠ .config) (x : Status Block) :
    Doomed f (A.set s x) := by
  constructor
  · simpa [hs.symm] using h.1
  · simpa [hc.symm] using h.2

theorem doomed_alloc (hs : s ≠ .field f) (hc : s ≠ .config) :
    Keeps (Doomed f) (alloc granted s v) := by
  unfold alloc
  cases granted with
  | true => exact Keeps.acquire (fun A x h => h.assign hs hc x) v
  | false => exact Keeps.clear fun A x h => h.assign hs hc x

theorem doomed_memCheck : Keeps (Doomed f) (memCheck s) := by
  apply Keeps.bind Keeps.isNull
  intro b
  cases b with
  | true => exact Keeps.throw _
  | false => exact Keeps.pure _

theorem doomed_allocChecked (hs : s ≠ .field f) (hc : s ≠ .config) :
    Keeps (Doomed f) (allocChecked granted s v) :=
  Keeps.bind (doomed_alloc hs hc) fun _ => doomed_memCheck

theorem doomed_release (hc : s ≠ .config) :
    Keeps (Doomed f) (release s : Action Unit) := by
  apply Keeps.release
  intro A v h hv
  apply h.set ?_ hc
  rintro rfl
  rw [h.1] at hv
  cases hv

/-- The string that dangles is not replaced without a fault. -/
theorem doomed_replace {f' : Field} {m : Action Unit} (hm : f' ≠ f → Keeps (Doomed f) m) :
    Keeps (Doomed f) (release (.field f') >>= fun _ => m) := by
  by_cases hf : f' = f
  · intro A hA
    apply wp_bind
    apply wp_release
    · intro hs
      rw [hf, hA.1] at hs
      cases hs
    · intro v hs
      rw [hf, hA.1] at hs
      cases hs
    · intro _
      exact .inl rfl
  · exact Keeps.bind (doomed_release (by simp)) fun _ => hm hf

theorem doomed_copyField {site : Field → Site} {f' : Field} :
    Keeps (Doomed f) (copyField g site f' o) := by
  cases o with
  | none => exact Keeps.pure _
  | some t =>
    apply doomed_replace
    intro hf
    exact doomed_allocChecked (by simpa using hf) (by simp)

theorem doomed_printChecked (hs : s ≠ .field f) (hc : s ≠ .config) :
    Keeps (Doomed f) (printChecked granted s keeps t) := by
  refine Keeps.bind ?_ fun _ => doomed_memCheck
  unfold asprintf
  cases granted with
  | true => exact Keeps.acquire (fun A x h => h.assign hs hc x) _
  | false =>
    cases keeps with
    | true => exact Keeps.pure _
    | false => exact Keeps.clear fun A x h => h.assign hs hc x

theorem doomed_printField {f' : Field} : Keeps (Doomed f) (printField keeps g f' o) := by
  cases o with
  | none => exact Keeps.pure _
  | some t =>
    apply doomed_replace
    intro hf
    exact doomed_printChecked (by simpa using hf) (by simp)

theorem doomed_setUserInfo : Keeps (Doomed f) (setUserInfo g o) := by
  cases o with
  | none => exact Keeps.pure _
  | some info =>
    apply Keeps.withLocal
    · intro A x h
      exact h.assign (by simp) (by simp) x
    · apply Keeps.bind (doomed_allocChecked (by simp) (by simp))
      intro _
      apply Keeps.bind doomed_copyField
      intro _
      apply Keeps.bind doomed_copyField
      intro _
      exact doomed_release (by simp)

variable {parse : Text → Option ParsedUrl} {encode : Text → Text} {uri : Text}

theorem doomed_setUri : Keeps (Doomed f) (setUri keeps g parse uri) := by
  unfold setUri
  cases parse uri with
  | none => exact Keeps.throw _
  | some u =>
    apply Keeps.bind doomed_printField
    intro _
    apply Keeps.bind doomed_printField
    intro _
    apply Keeps.bind doomed_printField
    intro _
    exact doomed_setUserInfo

theorem doomed_textAt : Keeps (Doomed f) (textAt s) := by
  apply Keeps.bind Keeps.read
  intro v
  split
  · exact Keeps.pure _
  · exact Keeps.throw _

theorem doomed_httpAuthBasic (hf : f ≠ .auth) : Keeps (Doomed f) (httpAuthBasic g encode) := by
  have hauth : Slot.field .auth ≠ .field f := by simpa using hf.symm
  apply Keeps.withLocal
  · intro A x h
    exact h.assign (by simp) (by simp) x
  · apply Keeps.bind doomed_textAt
    intro username
    apply Keeps.bind doomed_textAt
    intro password
    apply Keeps.bind (doomed_alloc (by simp) (by simp))
    intro _
    apply Keeps.bind Keeps.isNull
    intro b
    cases b with
    | true => exact Keeps.clear fun A x h => h.assign hauth (by simp) x
    | false =>
      apply Keeps.withLocal
      · intro A x h
        exact h.assign (by simp) (by simp) x
      · apply Keeps.bind (doomed_alloc (by simp) (by simp))
        intro _
        apply Keeps.bind (doomed_release (by simp))
        intro _
        apply Keeps.move (by simp)
        intro A x y h
        exact (h.set (by simp) (by simp) x).assign hauth (by simp) y

theorem doomed_setAuth (hf : f ≠ .auth) : Keeps (Doomed f) (setAuth g encode) := by
  apply Keeps.bind Keeps.isNull
  intro noUsername
  apply Keeps.bind Keeps.isNull
  intro noPassword
  split
  · exact Keeps.pure _
  · apply doomed_replace
    intro _
    exact Keeps.bind (doomed_httpAuthBasic hf) fun _ => doomed_memCheck

theorem doomed_setConfig {config : InitConfig} :
    Keeps (Doomed .scheme) (setConfig g encode config) := by
  apply Keeps.bind
  · cases config.host with
    | none => exact Keeps.pure _
    | some t => exact doomed_allocChecked (by simp) (by simp)
  intro _
  apply Keeps.bind doomed_copyField
  intro _
  apply Keeps.bind doomed_copyField
  intro _
  apply Keeps.bind (doomed_setAuth (by simp))
  intro _
  apply Keeps.bind doomed_copyField
  intro _
  apply Keeps.bind doomed_copyField
  intro _
  apply Keeps.bind doomed_copyField
  intro _
  apply Keeps.bind doomed_copyField
  intro _
  exact doomed_copyField

theorem doomed_setDefaultScheme : Keeps (Doomed .scheme) (setDefaultScheme keeps g) := by
  intro A hA
  apply wp_bind
  apply wp_isNull
  · intro hs
    rw [hA.1] at hs
    cases hs
  · intro _
    exact wp_pure hA

theorem doomed_allocBuffers {size : ℕ} : Keeps (Doomed f) (allocBuffers g size) := by
  apply Keeps.bind (Keeps.clear fun A x h => h.assign (by simp) (by simp) x)
  intro _
  apply Keeps.bind (Keeps.setVars fun A h => h)
  intro _
  apply Keeps.bind (doomed_allocChecked (by simp) (by simp))
  intro _
  apply Keeps.bind (doomed_allocChecked (by simp) (by simp))
  intro _
  exact doomed_allocChecked (by simp) (by simp)

theorem doomed_printErrormsg : Keeps (Doomed f) printErrormsg := by
  apply Keeps.bind Keeps.getVars
  intro errormsgSize
  apply Keeps.bind Keeps.read
  intro v
  split
  · split
    · exact Keeps.throw _
    · exact Keeps.pure _
  · exact Keeps.throw _

theorem doomed_error {needed : ℕ} : Keeps (Doomed f) (error g needed) := by
  apply Keeps.bind Keeps.getVars
  intro errormsgSize
  split
  · refine Keeps.bind ?_ fun _ => doomed_printErrormsg
    apply Keeps.bind (doomed_release (by simp))
    intro _
    apply Keeps.bind (doomed_alloc (by simp) (by simp))
    intro _
    apply Keeps.bind Keeps.isNull
    intro b
    cases b with
    | true => exact Keeps.bind (Keeps.setVars fun _ h => h) fun _ => Keeps.throw _
    | false => exact Keeps.setVars fun _ h => h
  · exact doomed_printErrormsg

theorem wp_release_doomed (h : Doomed f A) (hc : s ≠ .config)
    (hQ : s ≠ .field f → ∀ B, Doomed f B → Q () B) (hE : ∀ B, E .fault B) :
    wp (release s) Q E A := by
  have hne : A.status s ≠ .dangling → s ≠ .field f := by
    rintro hs rfl
    exact hs h.1
  apply wp_release
  · intro hs
    exact hQ (hne (by simp [hs])) A h
  · intro v hs
    have hs' := hne (by simp [hs])
    exact hQ hs' _ (h.set hs' hc .dangling)
  · intro _
    exact hE A

/-- `esp_websocket_client_destroy` releases the string a second time. -/
theorem wp_destroy_doomed (h : Doomed f A) (hE : ∀ B, E .fault B) : wp destroy Q E A := by
  have hfields : ∀ l : List Field, f ∈ l → ∀ B, Doomed f B → ∀ Q : PUnit → Books → Prop,
      wp (l.forM fun f' => release (.field f')) Q E B := by
    intro l
    induction l with
    | nil =>
      intro hf
      cases hf
    | cons x l ih =>
      intro hf B hB Q
      change wp (release (Slot.field x) >>= fun _ => l.forM _) _ _ _
      apply wp_bind
      apply wp_release_doomed hB (by simp) ?_ hE
      intro hx C hC
      refine ih ?_ C hC Q
      rcases List.mem_cons.mp hf with rfl | hf
      · exact absurd rfl hx
      · exact hf
  apply wp_bind
  apply wp_release_doomed h (by simp) ?_ hE
  intro _ B hB
  apply wp_bind
  apply wp_release_doomed hB (by simp) ?_ hE
  intro _ C hC
  apply wp_bind
  apply wp_bind
  apply wp_isNull
  · intro hs
    exact absurd hs hC.2
  · intro _
    apply wp_bind
    exact hfields Field.all (Field.mem_all f) C hC _

end WebsocketDangling
