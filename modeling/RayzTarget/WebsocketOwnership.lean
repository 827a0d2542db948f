import RayzTarget.WebsocketDangling

/-! # Who owns the strings of a websocket client

What `esp_websocket_client_set_uri` and `esp_websocket_client_set_config` do to the account of a
client, call site by call site: which strings they leave, and what they lose. -/
namespace WebsocketOwnership

open WebsocketMemory WebsocketDangling OwnedBlocks

variable {A B C : Books} {g : Grants} {keeps granted : Bool} {s : Slot} {f : Field} {v : Block}
  {t : Text} {o : Option Text} {Q : Unit → Books → Prop} {E : Stop EspErr → Books → Prop}

def Short (g : Grants) : Prop := ∃ site, g site = false

/-! ## Single allocations -/

theorem wp_alloc (hyes : granted = true → Q () (A.assign s (.holds v)))
    (hno : granted = false → Q () (A.assign s .null)) : wp (alloc granted s v) Q E A := by
  cases granted with
  | true => exact wp_acquire (hyes rfl)
  | false => exact wp_clear (hno rfl)

theorem wp_memCheck (hnull : A.status s = .null → E (.failed .noMem) A)
    (hnot : A.status s ≠ .null → Q () A) : wp (memCheck s) Q E A := by
  apply wp_bind
  apply wp_isNull
  · intro h
    exact wp_throw (hnull h)
  · intro h
    exact wp_pure (hnot h)

theorem wp_allocChecked (hyes : granted = true → Q () (A.assign s (.holds v)))
    (hno : granted = false → E (.failed .noMem) (A.assign s .null)) :
    wp (allocChecked granted s v) Q E A := by
  apply wp_bind
  apply wp_alloc
  · intro h
    apply wp_memCheck
    · intro hs
      simp at hs
    · intro _
      exact hyes h
  · intro h
    apply wp_memCheck
    · intro _
      exact hno h
    · intro hs
      simp at hs

/-- A string printed over a pointer that holds nothing. If it is not granted and the pointer is
kept, the check finds only a null pointer. -/
theorem wp_printChecked (hheld : (A.status s).held = 0)
    (hyes : granted = true → Q () (A.set s (.holds (.text t))))
    (hkept : granted = false → keeps = true → A.status s ≠ .null → Q () A)
    (hno : granted = false → (keeps = true → A.status s = .null) →
      E (.failed .noMem) (A.set s .null)) :
    wp (printChecked granted s keeps t) Q E A := by
  apply wp_bind
  cases granted with
  | true =>
    apply wp_acquire
    rw [Account.assign_eq_set _ hheld]
    apply wp_memCheck
    · intro hs
      simp at hs
    · intro _
      exact hyes rfl
  | false =>
    cases keeps with
    | true =>
      apply wp_pure
      apply wp_memCheck
      · intro hs
        have := hno rfl fun _ => hs
        rwa [Account.set_self _ hs] at this
      · intro hs
        exact hkept rfl rfl hs
    | false =>
      apply wp_clear
      rw [Account.assign_eq_set _ hheld]
      apply wp_memCheck
      · intro _
        exact hno rfl nofun
      · intro hs
        simp at hs

/-! ## Strings that are replaced -/

def copied (A : Books) (f : Field) : Option Text → Books
  | none => A
  | some t => A.set (.field f) (.holds (.text t))

@[simp] theorem copied_status : (copied A f o).status s =
    if s = .field f then o.elim (A.status (.field f)) (fun t => .holds (.text t))
    else A.status s := by
  cases o with
  | none =>
    split
    · rename_i h
      rw [h]
      rfl
    · rfl
  | some t => simp [copied]

@[simp] theorem copied_lost : (copied A f o).lost = A.lost := by cases o <;> rfl

@[simp] theorem copied_vars : (copied A f o).vars = A.vars := by cases o <;> rfl

/-- A string released and allocated anew: none is lost. -/
theorem wp_copyField {site : Field → Site} (h : A.status (.field f) ≠ .dangling)
    (hyes : (o.isSome → g (site f) = true) → Q () (copied A f o))
    (hno : o.isSome → g (site f) = false → E (.failed .noMem) (A.set (.field f) .null)) :
    wp (copyField g site f o) Q E A := by
  cases o with
  | none =>
    apply wp_pure
    apply hyes
    intro hnone
    cases hnone
  | some t =>
    have hfill : ∀ B : Books, (B.status (.field f)).held = 0 →
        (∀ x, B.set (.field f) x = A.set (.field f) x) →
        wp (allocChecked (g (site f)) (.field f) (.text t)) Q E B := by
      intro B hheld hset
      apply wp_allocChecked
      · intro hg
        rw [Account.assign_eq_set _ hheld, hset]
        exact hyes fun _ => hg
      · intro hg
        rw [Account.assign_eq_set _ hheld, hset]
        exact hno rfl hg
    apply wp_bind
    apply wp_release
    · intro hs
      apply hfill
      · rw [hs]
        rfl
      · intro x
        rfl
    · intro v hs
      apply hfill
      · simp 
      · intro x
        exact Account.set_set _ _
    · intro hs
      exact absurd hs h

/-- A string released and printed anew. If nothing is granted and the pointer is kept, the code
goes on with a pointer to the block it released. -/
theorem wp_printField (h : A.status (.field f) ≠ .dangling)
    (hyes : (o.isSome → g (.uri f) = true) → Q () (copied A f o))
    (hkept : o.isSome → g (.uri f) = false → keeps = true → A.status (.field f) ≠ .null →
      Q () (A.set (.field f) .dangling))
    (hno : o.isSome → g (.uri f) = false → (keeps = true → A.status (.field f) = .null) →
      E (.failed .noMem) (A.set (.field f) .null)) :
    wp (printField keeps g f o) Q E A := by
  cases o with
  | none =>
    apply wp_pure
    apply hyes
    intro hnone
    cases hnone
  | some t =>
    apply wp_bind
    apply wp_release
    · intro hs
      apply wp_printChecked
      · rw [hs]
        rfl
      · intro hg
        exact hyes fun _ => hg
      · intro _ _ hnot
        exact absurd hs hnot
      · intro hg _
        exact hno rfl hg fun _ => hs
    · intro v hs
      apply wp_printChecked
      · simp 
      · intro hg
        rw [Account.set_set]
        exact hyes fun _ => hg
      · intro hg hk _
        exact hkept rfl hg hk (by simp [hs])
      · intro hg hk
        rw [Account.set_set]
        refine hno rfl hg ?_
        intro hk'
        have := hk hk'
        simp at this
    · intro hs
      exact absurd hs h

def IsString (x : Status Block) : Prop := x = .null ∨ ∃ t, x = .holds (.text t)

theorem IsString.sound {x : Status Block} (h : IsString x) : x ≠ .dangling := by
  rcases h with rfl | ⟨t, rfl⟩ <;> simp

/-- `B` is `A` with other strings and `leak` lost. -/
structure Restrung (A B : Books) (leak : Multiset Block) : Prop where
  strings : ∀ f, IsString (B.status (.field f))
  others : ∀ s, (∀ f, s ≠ .field f) → B.status s = A.status s
  lost : B.lost = A.lost + leak
  vars : B.vars = A.vars

namespace Restrung

variable {leak : Multiset Block}

theorem refl (h : ∀ f, IsString (A.status (.field f))) : Restrung A A 0 :=
  ⟨h, fun _ _ => rfl, (add_zero _).symm, rfl⟩

theorem set (h : Restrung A B leak) (f : Field) {x : Status Block} (hx : IsString x) :
    Restrung A (B.set (.field f) x) leak := by
  constructor
  · intro f'
    by_cases hf : f' = f
    · simpa [hf] using hx
    · simpa [hf] using h.strings f'
  · intro s hs
    simpa [hs f] using h.others s hs
  · exact h.lost
  · exact h.vars

theorem copied (h : Restrung A B leak) (f : Field) (o : Option Text) :
    Restrung A (copied B f o) leak := by
  cases o with
  | none => exact h
  | some t => exact h.set f (.inr ⟨t, rfl⟩)

theorem sound (h : Restrung A B leak) (f : Field) : B.status (.field f) ≠ .dangling :=
  (h.strings f).sound

end Restrung

/-! ## The credentials of a URI -/

def credentialsGranted (g : Grants) (info : Text) : Bool :=
  ((passwordOf info).isNone || g (.uri .password)) && g (.uri .username)

def userInfoGranted (g : Grants) (o : Option Text) : Bool :=
  o.all fun info => g .uriUserInfo && credentialsGranted g info

/-- Both early returns leave the copy of the user info behind. -/
def userInfoLost (g : Grants) : Option Text → Multiset Block
  | none => 0
  | some info => if g .uriUserInfo && !credentialsGranted g info then {.text info} else 0

def credited (A : Books) : Option Text → Books
  | none => A
  | some info =>
    copied (copied A .password (passwordOf info)) .username (some (usernameOf info))

theorem wp_setUserInfo (hlocal : A.status .userInfo = .null)
    (hstrings : ∀ f, IsString (A.status (.field f)))
    (hyes : userInfoGranted g o = true → Q () (credited A o))
    (hno : userInfoGranted g o = false → ∀ B, Restrung A B (userInfoLost g o) →
      E (.failed .noMem) B) :
    wp (setUserInfo g o) Q E A := by
  cases o with
  | none => exact wp_pure (hyes rfl)
  | some info =>
    have hnull : A.assign .userInfo .null = A := by
      rw [Account.assign_eq_set _ (by rw [hlocal]; rfl), Account.set_self _ hlocal]
    have hheld : A.assign .userInfo (.holds (.text info)) =
        A.set .userInfo (.holds (.text info)) := Account.assign_eq_set _ (by rw [hlocal]; rfl)
    -- what is left when the copies fail, the local pointer gone
    have hfail : ∀ B : Books, credentialsGranted g info = false → g .uriUserInfo = true →
        Restrung (A.set .userInfo (.holds (.text info))) B 0 →
        E (.failed .noMem) (B.assign .userInfo .null) := by
      intro B hc hg hB
      apply hno
      · simp [userInfoGranted, hc]
      · have hinfo : B.status .userInfo = .holds (.text info) := by
          rw [hB.others .userInfo nofun]
          simp
        constructor
        · intro f
          simpa using hB.strings f
        · intro s hs
          by_cases h : s = .userInfo
          · simp [h, hlocal]
          · simpa [h] using hB.others s hs
        · have hlost := hB.lost
          simp only [add_zero, Account.set_lost] at hlost
          simp [hlost, hinfo, userInfoLost, hg, hc]
        · exact hB.vars
    have hstart : Restrung (A.set .userInfo (.holds (.text info)))
        (A.set .userInfo (.holds (.text info))) 0 := by
      apply Restrung.refl
      intro f
      simpa using hstrings f
    apply wp_withLocal
    rw [hnull]
    apply wp_bind
    apply wp_allocChecked
    · intro hg
      rw [hheld]
      apply wp_bind
      apply wp_copyField (hstart.sound .password)
      · intro hpassword
        have hcopied := hstart.copied .password (passwordOf info)
        apply wp_bind
        apply wp_copyField (hcopied.sound .username)
        · intro husername
          have hall : credentialsGranted g info = true := by
            cases hp : passwordOf info with
            | none => simpa [credentialsGranted, hp] using husername rfl
            | some _ =>
              have := hpassword (by rw [hp]; rfl)
              simpa [credentialsGranted, hp, this] using husername rfl
          have hdone : ∀ B : Books,
              B = copied (copied (A.set .userInfo (.holds (.text info))) .password
                (passwordOf info)) .username (some (usernameOf info)) →
              Q () ((B.set .userInfo .dangling).assign .userInfo .null) := by
            rintro _ rfl
            have hcredited := hyes (by simp [userInfoGranted, hg, hall])
            convert hcredited using 1
            ext s
            · by_cases h : s = .userInfo
              · simp [credited, h, hlocal]
              · simp [credited, h]
            · simp [credited]
            · simp [credited]
          apply wp_release
          · intro hs
            simp at hs
          · intro _ _
            exact hdone _ rfl
          · intro hs
            simp at hs
        · intro _ husername
          have hrefused : credentialsGranted g info = false := by
            simp [credentialsGranted, husername]
          exact hfail _ hrefused hg (hcopied.set .username (.inl rfl))
      · intro hsome hpassword
        refine hfail _ ?_ hg (hstart.set .password (.inl rfl))
        simp [credentialsGranted, hpassword, Option.ne_none_iff_isSome.mpr hsome]
    · intro hg
      rw [hnull]
      apply hno
      · simp [userInfoGranted, hg]
      · have := Restrung.refl hstrings
        simpa [userInfoLost, hg, hnull] using this

variable {parse : Text → Option ParsedUrl} {encode : Text → Text} {uri : Text}

/-! ## A URI -/

def urlStrings (uri : Text) (u : ParsedUrl) : List (Field × Option Text) :=
  [(.scheme, urlScheme uri u), (.host, urlHost uri u), (.path, urlPath uri u)]

def refused (g : Grants) (x : Field × Option Text) : Bool := x.2.isSome && !g (.uri x.1)

def firstRefused (g : Grants) (uri : Text) (u : ParsedUrl) : Option Field :=
  ((urlStrings uri u).find? (refused g)).map Prod.fst

def uriTaken (parse : Text → Option ParsedUrl) (g : Grants) (uri : Text) : Bool :=
  (parse uri).any fun u =>
    (firstRefused g uri u).isNone && userInfoGranted g (urlUserInfo uri u)

def uriLost (parse : Text → Option ParsedUrl) (g : Grants) (uri : Text) : Multiset Block :=
  match parse uri with
  | none => 0
  | some u => if (firstRefused g uri u).isNone then userInfoLost g (urlUserInfo uri u) else 0

/-- An `asprintf` that fails keeps a pointer to the string released just before. -/
def Lapses (keeps : Bool) (parse : Text → Option ParsedUrl) (g : Grants) (uri : Text)
    (held : Field → Bool) (f : Field) : Prop :=
  keeps = true ∧ held f = true ∧ ∃ u, parse uri = some u ∧ firstRefused g uri u = some f

def isHeld (A : Books) (f : Field) : Bool := A.status (.field f) ≠ .null

def printed (A : Books) (l : List (Field × Option Text)) : Books :=
  l.foldl (fun B x => copied B x.1 x.2) A

def located (A : Books) (uri : Text) (u : ParsedUrl) : Books :=
  credited (printed A (urlStrings uri u)) (urlUserInfo uri u)

theorem Restrung.printed {leak : Multiset Block} (h : Restrung A B leak)
    (l : List (Field × Option Text)) : Restrung A (printed B l) leak := by
  induction l generalizing B with
  | nil => exact h
  | cons x l ih => exact ih (h.copied x.1 x.2)

theorem Restrung.located {leak : Multiset Block} (h : Restrung A B leak) (uri : Text)
    (u : ParsedUrl) : Restrung A (located B uri u) leak := by
  unfold WebsocketOwnership.located
  cases urlUserInfo uri u with
  | none => exact h.printed _
  | some info =>
    have hpassword := (h.printed (urlStrings uri u)).copied .password (passwordOf info)
    exact hpassword.copied .username (some (usernameOf info))

def printAll (keeps : Bool) (g : Grants) (k : Action Unit) :
    List (Field × Option Text) → Action Unit
  | [] => k
  | x :: l => printField keeps g x.1 x.2 >>= fun _ => printAll keeps g k l

theorem doomed_printAll {k : Action Unit} (hk : Keeps (Doomed f) k)
    (l : List (Field × Option Text)) : Keeps (Doomed f) (printAll keeps g k l) := by
  induction l with
  | nil => exact hk
  | cons x l ih => exact Keeps.bind doomed_printField fun _ => ih

theorem wp_printAll {k : Action Unit} (hk : ∀ f, Keeps (Doomed f) k)
    (hconfig : A.status .config ≠ .null) {l : List (Field × Option Text)}
    (hdistinct : (l.map Prod.fst).Nodup) (hB : Restrung A B 0)
    (hsame : ∀ x ∈ l, B.status (.field x.1) = A.status (.field x.1))
    (hdone : l.find? (refused g) = none → Restrung A (printed B l) 0 → wp k Q E (printed B l))
    (hno : ∀ x, l.find? (refused g) = some x → (keeps = true → A.status (.field x.1) = .null) →
      ∀ C, Restrung A C 0 → E (.failed .noMem) C)
    (hlapse : ∀ x, l.find? (refused g) = some x → keeps = true → A.status (.field x.1) ≠ .null →
      (∀ C, Doomed x.1 C → Q () C) ∧ ∀ e C, e = .fault ∨ Doomed x.1 C → E e C) :
    wp (printAll keeps g k l) Q E B := by
  induction l generalizing B with
  | nil => exact hdone rfl hB
  | cons x l ih =>
    obtain ⟨hx, hdistinct⟩ := List.nodup_cons.mp hdistinct
    have hstatus := hsame x List.mem_cons_self
    apply wp_bind
    apply wp_printField (hB.sound x.1)
    · intro hgranted
      have hx' : refused g x = false := by
        cases hs : x.2.isSome with
        | true => simp [refused, hgranted hs]
        | false => simp [refused, hs]
      apply ih hdistinct (hB.copied x.1 x.2)
      · intro y hy
        have hne : y.1 ≠ x.1 := by
          rintro heq
          exact hx (heq ▸ List.mem_map_of_mem hy)
        simpa [hne] using hsame y (List.mem_cons_of_mem x hy)
      · intro hnone
        exact hdone (by rw [List.find?_cons, hx', hnone])
      · intro y hy
        exact hno y (by rw [List.find?_cons, hx', hy])
      · intro y hy
        exact hlapse y (by rw [List.find?_cons, hx', hy])
    · intro hsome hg hk' hnot
      have hfind : (x :: l).find? (refused g) = some x := by
        rw [List.find?_cons, refused, hsome, hg]
        rfl
      obtain ⟨hq, he⟩ := hlapse x hfind hk' (hstatus ▸ hnot)
      have hdoomed : Doomed x.1 (B.set (.field x.1) .dangling) := by
        refine ⟨by simp, ?_⟩
        simpa [hB.others .config (by simp)] using hconfig
      exact wp_mono (doomed_printAll (hk x.1) l _ hdoomed) (fun _ => hq) he
    · intro hsome hg hnull
      have hfind : (x :: l).find? (refused g) = some x := by
        rw [List.find?_cons, refused, hsome, hg]
        rfl
      exact hno x hfind (fun hk => hstatus ▸ hnull hk) _ (hB.set x.1 (.inl rfl))

theorem setUri_eq (keeps : Bool) (g : Grants) {u : ParsedUrl} (h : parse uri = some u) :
    setUri keeps g parse uri =
      printAll keeps g (setUserInfo g (urlUserInfo uri u)) (urlStrings uri u) := by
  unfold setUri
  rw [h]
  rfl

theorem printed_other {l : List (Field × Option Text)} (hs : ∀ f, s ≠ .field f) :
    (printed A l).status s = A.status s := by
  induction l generalizing A with
  | nil => rfl
  | cons x l ih =>
    refine (ih (A := copied A x.1 x.2)).trans ?_
    simp [hs x.1]

/-- A call that does not lapse sets the strings of the URI, or fails with other strings of its
own; one that lapses goes on with a string left dangling. -/
theorem wp_setUri (hlocal : A.status .userInfo = .null) (hconfig : A.status .config ≠ .null)
    (hstrings : ∀ f, IsString (A.status (.field f)))
    (hyes : uriTaken parse g uri = true → ∀ u, parse uri = some u → Q () (located A uri u))
    (hno : uriTaken parse g uri = false → (∀ f, ¬ Lapses keeps parse g uri (isHeld A) f) →
      ∀ e B, Restrung A B (uriLost parse g uri) → E (.failed e) B)
    (hlapse : ∀ f, Lapses keeps parse g uri (isHeld A) f →
      (∀ B, Doomed f B → Q () B) ∧ ∀ e B, e = .fault ∨ Doomed f B → E e B) :
    wp (setUri keeps g parse uri) Q E A := by
  have hstart := Restrung.refl hstrings
  cases hparse : parse uri with
  | none =>
    have hlost : uriLost parse g uri = 0 := by rw [uriLost, hparse]
    have hnot : ∀ f, ¬ Lapses keeps parse g uri (isHeld A) f := by
      rintro f ⟨-, -, u, hu, -⟩
      rw [hparse] at hu
      cases hu
    unfold setUri
    rw [hparse]
    apply wp_throw
    exact hno (by simp [uriTaken, hparse]) hnot .fail A (hlost ▸ hstart)
  | some u =>
    rw [setUri_eq keeps g hparse]
    apply wp_printAll (fun f => doomed_setUserInfo) hconfig (by simp [urlStrings]) hstart
      (fun _ _ => rfl)
    · intro hnone hprinted
      have hfirst : (firstRefused g uri u).isNone = true := by simp [firstRefused, hnone]
      have hnot : ∀ f, ¬ Lapses keeps parse g uri (isHeld A) f := by
        rintro f ⟨-, -, v, hv, hf⟩
        cases hparse.symm.trans hv
        rw [hf] at hfirst
        cases hfirst
      apply wp_setUserInfo
      · rw [printed_other (by simp)]
        exact hlocal
      · exact hprinted.strings
      · intro hgranted
        exact hyes (by simp [uriTaken, hparse, hfirst, hgranted]) u hparse
      · intro hgranted B hB
        refine hno (by simp [uriTaken, hparse, hgranted]) hnot .noMem B ?_
        have hlost : uriLost parse g uri = userInfoLost g (urlUserInfo uri u) := by
          rw [uriLost, hparse]
          exact if_pos hfirst
        constructor
        · exact hB.strings
        · intro s hs
          exact (hB.others s hs).trans (hprinted.others s hs)
        · rw [hB.lost, hprinted.lost, add_zero, hlost]
        · exact hB.vars.trans hprinted.vars
    · intro x hx hnull B hB
      have hfirst : firstRefused g uri u = some x.1 := by simp [firstRefused, hx]
      refine hno (by simp [uriTaken, hparse, hfirst]) ?_ .noMem B ?_
      · rintro f ⟨hk, hheld, v, hv, hf⟩
        cases hparse.symm.trans hv
        cases hfirst.symm.trans hf
        simp [isHeld, hnull hk] at hheld
      · have hlost : uriLost parse g uri = 0 := by
          rw [uriLost, hparse]
          simp [hfirst]
        rw [hlost]
        exact hB
    · intro x hx hk hnot
      have hfirst : firstRefused g uri u = some x.1 := by simp [firstRefused, hx]
      exact hlapse x.1 ⟨hk, by simp [isHeld, hnot], u, hparse, hfirst⟩

/-! ## The configuration -/

variable {config : InitConfig} {leak : Multiset Block}

def authorized (encode : Text → Text) (A : Books) : Books :=
  match A.status (.field .username), A.status (.field .password) with
  | .holds (.text username), .holds (.text password) =>
    A.set (.field .auth)
      (.holds (.text (wsHttpBasicAuth ++ encode (username ++ ':' :: password))))
  | _, _ => A

theorem wp_textAt {R : Text → Books → Prop} (hs : A.status s = .holds (.text t)) (hQ : R t A) :
    wp (textAt s) R E A := by
  apply wp_bind
  apply wp_read
  · intro h
    rw [hs] at h
    cases h
  · intro v h
    cases hs.symm.trans h
    exact wp_pure hQ
  · intro h
    rw [hs] at h
    cases h

theorem wp_httpAuthBasic {username password : Text} (hinfo : A.status .userInfo = .null)
    (hdigest : A.status .digest = .null) (hauth : (A.status (.field .auth)).held = 0)
    (husername : A.status (.field .username) = .holds (.text username))
    (hpassword : A.status (.field .password) = .holds (.text password))
    (hyes : Q () (A.set (.field .auth)
      (.holds (.text (wsHttpBasicAuth ++ encode (username ++ ':' :: password))))))
    (hno : Short g → Q () (A.set (.field .auth) .null)) :
    wp (httpAuthBasic g encode) Q E A := by
  have hnull : A.assign .userInfo .null = A := by
    rw [Account.assign_eq_set _ (by rw [hinfo]; rfl), Account.set_self _ hinfo]
  apply wp_withLocal
  rw [hnull]
  apply wp_bind
  apply wp_textAt husername
  apply wp_bind
  apply wp_textAt hpassword
  apply wp_bind
  apply wp_alloc
  · intro _
    rw [Account.assign_eq_set _ (by rw [hinfo]; rfl)]
    apply wp_bind
    apply wp_isNull
    · intro hs
      simp at hs
    · intro _
      apply wp_withLocal
      rw [Account.assign_eq_set _ (by simp [hdigest]), Account.set_self _ (by simp [hdigest])]
      -- what the digest is, the function returns
      have hrest : ∀ x E', Q () (A.set (.field .auth) x) →
          wp (do release .userInfo; move .digest (.field .auth) : Action Unit)
            (fun a B => Q a ((B.assign .digest .null).assign .userInfo .null)) E'
            ((A.set .userInfo (.holds (.text (username ++ ':' :: password)))).set .digest x) := by
        intro x E' hx
        apply wp_bind
        apply wp_release
        · intro hs
          simp at hs
        · intro v _
          apply wp_move (by simp)
          convert hx using 1
          apply Account.ext
          · funext s
            by_cases h : s = .userInfo
            · simp [h, hinfo]
            · by_cases h' : s = .digest
              · simp [h', hdigest]
              · simp [h, h']
          · simp [hauth]
          · simp
        · intro hs
          simp at hs
      apply wp_bind
      apply wp_alloc
      · intro _
        rw [Account.assign_eq_set _ (by simp [hdigest])]
        exact hrest _ _ hyes
      · intro hg
        rw [Account.assign_eq_set _ (by simp [hdigest])]
        exact hrest _ _ (hno ⟨_, hg⟩)
  · intro hg
    rw [hnull]
    apply wp_bind
    apply wp_isNull
    · intro _
      apply wp_clear
      rw [Account.assign_eq_set _ hauth, Account.assign_eq_set _ (by simp [hinfo]),
        Account.set_self _ (by simp [hinfo])]
      exact hno ⟨_, hg⟩
    · intro hs
      exact absurd hinfo hs

theorem Restrung.authorized (h : Restrung A B leak) (encode : Text → Text) :
    Restrung A (authorized encode B) leak := by
  unfold WebsocketOwnership.authorized
  split
  · exact h.set .auth (.inr ⟨_, rfl⟩)
  · exact h

theorem wp_setAuth (hinfo : A.status .userInfo = .null) (hdigest : A.status .digest = .null)
    (hB : Restrung A B leak) (hyes : Q () (authorized encode B))
    (hno : Short g → ∀ C, Restrung A C leak → E (.failed .noMem) C) :
    wp (setAuth g encode) Q E B := by
  have hskip : (∀ t, B.status (.field .username) ≠ .holds (.text t)) ∨
      (∀ t, B.status (.field .password) ≠ .holds (.text t)) → Q () B := by
    intro h
    have heq : authorized encode B = B := by
      unfold authorized
      split
      · rename_i hu hp
        rcases h with h | h
        · exact absurd hu (h _)
        · exact absurd hp (h _)
      · rfl
    rwa [heq] at hyes
  apply wp_bind
  apply wp_isNull
  · intro hu
    apply wp_bind
    have hq := hskip (.inl fun t => by simp [hu])
    exact wp_isNull (fun _ => wp_pure hq) fun _ => wp_pure hq
  · intro hu
    apply wp_bind
    apply wp_isNull
    · intro hp
      exact wp_pure (hskip (.inr fun t => by simp [hp]))
    · intro hp
      obtain ⟨username, hu⟩ := (hB.strings .username).resolve_left hu
      obtain ⟨password, hp⟩ := (hB.strings .password).resolve_left hp
      have heq : authorized encode B = B.set (.field .auth)
          (.holds (.text (wsHttpBasicAuth ++ encode (username ++ ':' :: password)))) := by
        simp only [authorized, hu, hp]
      have hrest : ∀ C : Books, (C.status (.field .auth)).held = 0 →
          (∀ x, C.set (.field .auth) x = B.set (.field .auth) x) →
          (∀ s, s ≠ .field .auth → C.status s = B.status s) →
          wp (do httpAuthBasic g encode; memCheck (.field .auth)) Q E C := by
        intro C hheld hset hsame
        apply wp_bind
        apply wp_httpAuthBasic ?_ ?_ hheld ((hsame _ (by simp)).trans hu)
          ((hsame _ (by simp)).trans hp)
        · rw [hset, ← heq]
          apply wp_memCheck
          · intro hs
            simp [heq] at hs
          · intro _
            exact hyes
        · intro hshort
          rw [hset]
          apply wp_memCheck
          · intro _
            exact hno hshort _ (hB.set .auth (.inl rfl))
          · intro hs
            simp at hs
        · rw [hsame _ (by simp), hB.others _ (by simp), hinfo]
        · rw [hsame _ (by simp), hB.others _ (by simp), hdigest]
      apply wp_bind
      apply wp_release
      · intro hs
        exact hrest B (by simp [hs]) (fun _ => rfl) fun _ _ => rfl
      · intro v _
        apply hrest
        · simp
        · intro x
          exact Account.set_set _ _
        · intro s hs
          simp [hs]
      · intro hs
        exact absurd hs (hB.sound .auth)

def hostLost (A : Books) (config : InitConfig) : Multiset Block :=
  if config.host.isSome then (A.status (.field .host)).held else 0

def hosted (A : Books) : Option Text → Books
  | none => A
  | some t => A.assign (.field .host) (.holds (.text t))

def credentials (config : InitConfig) : List (Field × Option Text) :=
  [(.username, config.username), (.password, config.password)]

def otherStrings (config : InitConfig) : List (Field × Option Text) :=
  [(.uri, config.uri), (.path, config.path), (.subprotocol, config.subprotocol),
    (.userAgent, config.userAgent), (.headers, config.headers)]

def configured (encode : Text → Text) (A : Books) (config : InitConfig) : Books :=
  printed (authorized encode (printed (hosted A config.host) (credentials config)))
    (otherStrings config)

theorem restrung_assign (hA : ∀ f, IsString (A.status (.field f))) {x : Status Block}
    (hx : IsString x) : Restrung A (A.assign (.field f) x) (A.status (.field f)).held := by
  constructor
  · intro f'
    by_cases hf : f' = f
    · simpa [hf] using hx
    · simpa [hf] using hA f'
  · intro s hs
    simp [hs f]
  · rfl
  · rfl

theorem hosted_restrung (hA : ∀ f, IsString (A.status (.field f))) :
    Restrung A (hosted A config.host) (hostLost A config) := by
  cases hhost : config.host with
  | none => simpa [hosted, hostLost, hhost] using Restrung.refl hA
  | some t => simpa [hosted, hostLost, hhost] using restrung_assign hA (.inr ⟨t, rfl⟩)

theorem configured_restrung (hA : ∀ f, IsString (A.status (.field f))) :
    Restrung A (configured encode A config) (hostLost A config) :=
  (((hosted_restrung hA).printed (credentials config)).authorized encode).printed
    (otherStrings config)

def copyAll (g : Grants) (k : Action Unit) : List (Field × Option Text) → Action Unit
  | [] => k
  | x :: l => copyField g .copy x.1 x.2 >>= fun _ => copyAll g k l

theorem wp_copyAll {k : Action Unit} {l : List (Field × Option Text)} (hB : Restrung A B leak)
    (hk : wp k Q E (printed B l))
    (hno : Short g → ∀ C, Restrung A C leak → E (.failed .noMem) C) :
    wp (copyAll g k l) Q E B := by
  induction l generalizing B with
  | nil => exact hk
  | cons x l ih =>
    apply wp_bind
    apply wp_copyField (hB.sound x.1)
    · intro _
      exact ih (hB.copied x.1 x.2) hk
    · intro _ hg
      exact hno ⟨_, hg⟩ _ (hB.set x.1 (.inl rfl))

/-- The configuration is set, or the client has other strings; a host that was there is lost. -/
theorem wp_setConfig (hinfo : A.status .userInfo = .null) (hdigest : A.status .digest = .null)
    (hstrings : ∀ f, IsString (A.status (.field f))) (hyes : Q () (configured encode A config))
    (hno : Short g → ∀ B, Restrung A B (hostLost A config) → E (.failed .noMem) B) :
    wp (setConfig g encode config) Q E A := by
  have hhost : Restrung A (hosted A config.host) _ := hosted_restrung hstrings
  have hcredentials := hhost.printed (credentials config)
  have hrest : wp (copyAll g (do
      setAuth g encode
      copyAll g (pure ()) (otherStrings config)) (credentials config)) Q E
        (hosted A config.host) := by
    apply wp_copyAll hhost ?_ hno
    apply wp_bind
    apply wp_setAuth hinfo hdigest hcredentials ?_ hno
    exact wp_copyAll (hcredentials.authorized encode) (wp_pure hyes) hno
  have hbody : setConfig g encode config = (do
      setHost g config.host
      copyAll g (do
        setAuth g encode
        copyAll g (pure ()) (otherStrings config)) (credentials config)) := by
    simp only [setConfig, copyAll, credentials, otherStrings, bind_pure_unit]
  rw [hbody]
  apply wp_bind
  cases ho : config.host with
  | none =>
    rw [ho, hosted] at hrest
    exact wp_pure hrest
  | some t =>
    rw [ho, hosted] at hrest
    apply wp_allocChecked
    · intro _
      exact hrest
    · intro hg
      apply hno ⟨_, hg⟩
      rw [hostLost, ho]
      exact restrung_assign hstrings (.inl rfl)

end WebsocketOwnership
