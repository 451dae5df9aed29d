import SdkPubkey.Pairing.Together
import SdkPubkey.Pairing.Folder

/-!
# Which states a session goes through

Each party replaces the whole session file by what it made of an earlier text. As long as every
approver finds the session still pending when it writes (`inTime`), the file is `PENDING`,
`RESPONDED`, `COMPLETED`, in this order and each at most once (`Orderly`), and a call of an approver
ends normally only when the new device has opened the response of that approver (`folder_session`).
Two approvers that both found the session pending break this (`folder_two_approvers`).

`Roles` has the rely/guarantee argument: the new device relies on a pending session being answered
once, an approver on the texts of the file being added to in order.
-/

namespace Pairing.Folder

open Ckvf Lib Lib.Protocol Vault Oprf Sync Vault.Dart

variable {H B W Txt : Type}

/-! ## Texts of the file -/

section
variable (J : JsonText Txt)

/-- The state in a text of the file. -/
def textState (text : Txt) : Option String :=
  match J.decode text with
  | some (.obj m) => stateOf m
  | _ => none

def completed : Option String := some "COMPLETED"
def responded : Option String := some "RESPONDED"
def pending : Option String := some "PENDING"

/-- The states of the texts, the last one first: in order, and each once. -/
def Orderly (texts : List Txt) : Prop :=
  texts.map (textState J) <:+ [completed, responded, pending]

/-- The session is to be approved. -/
def IsPending (texts : List Txt) : Prop := texts.head?.bind (textState J) = pending

instance (texts : List Txt) : Decidable (Orderly J texts) :=
  inferInstanceAs (Decidable (List.IsSuffix _ _))

instance (texts : List Txt) : Decidable (IsPending J texts) := inferInstanceAs (Decidable (_ = _))

end

section
variable {J : JsonText Txt} {texts : List Txt} {text : Txt}

/-- The four stages of a session. -/
theorem Orderly.cases (h : Orderly J texts) :
    texts = [] ∨ (∃ p, texts = [p] ∧ textState J p = pending) ∨
      (∃ r p, texts = [r, p] ∧ textState J r = responded ∧ textState J p = pending) ∨
      ∃ c r p, texts = [c, r, p] ∧ textState J c = completed ∧ textState J r = responded ∧
        textState J p = pending := by
  unfold Orderly at h
  rw [List.suffix_cons_iff, List.suffix_cons_iff, List.suffix_cons_iff, List.suffix_nil] at h
  rcases h with h | h | h | h
  · obtain ⟨c, l, rfl, hc, h⟩ := List.map_eq_cons_iff.1 h
    obtain ⟨r, l, rfl, hr, h⟩ := List.map_eq_cons_iff.1 h
    obtain ⟨p, l, rfl, hp, h⟩ := List.map_eq_cons_iff.1 h
    obtain rfl := List.map_eq_nil_iff.1 h
    exact .inr (.inr (.inr ⟨c, r, p, rfl, hc, hr, hp⟩))
  · obtain ⟨r, l, rfl, hr, h⟩ := List.map_eq_cons_iff.1 h
    obtain ⟨p, l, rfl, hp, h⟩ := List.map_eq_cons_iff.1 h
    obtain rfl := List.map_eq_nil_iff.1 h
    exact .inr (.inr (.inl ⟨r, p, rfl, hr, hp⟩))
  · obtain ⟨p, l, rfl, hp, h⟩ := List.map_eq_cons_iff.1 h
    obtain rfl := List.map_eq_nil_iff.1 h
    exact .inr (.inl ⟨p, rfl, hp⟩)
  · exact .inl (List.map_eq_nil_iff.1 h)

theorem orderly_pending (h : textState J text = pending) : Orderly J [text] := by
  unfold Orderly
  rw [List.map_singleton, h]
  exact ⟨[completed, responded], rfl⟩

theorem orderly_responded {p : Txt} (hp : textState J p = pending)
    (h : textState J text = responded) : Orderly J [text, p] := by
  unfold Orderly
  rw [List.map_cons, List.map_singleton, h, hp]
  exact ⟨[completed], rfl⟩

theorem orderly_completed {r p : Txt} (hp : textState J p = pending)
    (hr : textState J r = responded)
    (h : textState J text = completed) : Orderly J [text, r, p] := by
  unfold Orderly
  simp [h, hr, hp]

/-- A pending session is at its beginning. -/
theorem Orderly.of_pending (h : Orderly J texts) (hp : IsPending J texts) :
    ∃ p, texts = [p] ∧ textState J p = pending := by
  rcases h.cases with rfl | hone | ⟨r, p, rfl, hr, -⟩ | ⟨c, r, p, rfl, hc, -, -⟩
  · cases hp
  · exact hone
  · have hs : textState J r = pending := hp
    rw [hr] at hs
    exact absurd hs (by decide)
  · have hs : textState J c = pending := hp
    rw [hc] at hs
    exact absurd hs (by decide)

theorem textState_encode (m : Json.Obj) : textState J (J.encode (.obj m)) = stateOf m := by
  obtain ⟨m', hd, hm⟩ := J.decode_encode m
  unfold textState
  rw [hd]
  exact (hm "state").1

end

/-! ## The calls -/

section
variable {c : SessionCall H B W Txt} {ev : SessionEv H B W} {d : FolderParty Txt} {texts : List Txt}
  {a : c.Ans} {s' : FolderParty Txt × List Txt}

/-- What a call can do. -/
def SessionStep (c : SessionCall H B W Txt) (d : FolderParty Txt) (texts : List Txt) (a : c.Ans)
    (s' : FolderParty Txt × List Txt) : Prop :=
  match c with
  | .readFile => (∃ text rest, texts = text :: rest ∧ a = (.ok text : Except VaultClientError Txt) ∧
      s' = ({ d with read := some text }, texts)) ∨
    ((∃ e, a = (.error e : Except VaultClientError Txt)) ∧ s' = (d, texts))
  | .replaceFile text => (a = (.ok () : Except VaultClientError Unit) ∧
      s' = ({ d with wrote := some text }, text :: texts)) ∨
    ((∃ e, a = (.error e : Except VaultClientError Unit)) ∧ s' = (d, texts))
  | _ => s' = (d, texts)

theorem session_step (h : (sessionEnv H B W Txt).step c ev (d, texts) = some (a, s')) :
    SessionStep c d texts a s' := by
  cases c with
  | readFile =>
    cases ev with
    | ok =>
      cases texts with
      | nil =>
        cases h
        exact .inr ⟨⟨_, rfl⟩, rfl⟩
      | cons text rest =>
        cases h
        exact .inl ⟨text, rest, rfl, rfl, rfl⟩
    | fails e =>
      cases h
      exact .inr ⟨⟨e, rfl⟩, rfl⟩
    | _ => cases h
  | replaceFile text =>
    cases ev with
    | ok =>
      cases h
      exact .inl ⟨rfl, rfl⟩
    | fails e =>
      cases h
      exact .inr ⟨⟨e, rfl⟩, rfl⟩
    | _ => cases h
  | randomBytes n =>
    cases ev with
    | bytes b =>
      simp only [sessionEnv] at h
      split at h
      · cases h
        rfl
      · cases h
    | _ => cases h
  | polling => cases ev <;> cases h
  | _ =>
    cases ev with
    | _ => first
      | (cases h; rfl)
      | cases h

end

/-! ## The parts of the parties -/

section
variable {F E : Type} [Field F] [AddCommGroup E] [Module F E] [DecidableEq F] [DecidableEq E]
  (S : Suite F E) (L : Ckvf H B W) (P : PairingPackage H B W) (K : SessionTexts H B W)
  (J : JsonText Txt) (N : NewDevice) {ι : Type}

/-- A response that the new device opens. -/
def Opens (text : Txt) : Prop :=
  ∃ m state opened, J.decode text = some (.obj m) ∧ initiator S P N = .ok state ∧
    openResponse S L P K N.sessionId N.identityId state m = .ok opened

/-- What a party relies on: only one approver answers, and texts are added in order. -/
def FolderRely : FolderRole ι → List Txt → List Txt → Prop
  | .device, g, g' => g' = g ∨ ∃ p r, g = [p] ∧ textState J r = responded ∧ g' = [r, p]
  | .approver _, g, g' => g <:+ g' ∧ (Orderly J g → Orderly J g')

/-- What a party guarantees: what it writes comes next. -/
def FolderGuarantee : FolderRole ι → FolderParty Txt × List Txt → FolderParty Txt × List Txt → Prop
  | .device, s, s' => (s'.2 = s.2 ∧ (s'.1 = s.1 ∨ s.2.length < 3)) ∨
      (s.2 = [] ∧ ∃ p, textState J p = pending ∧ s'.2 = [p]) ∨
      ∃ c r p, s.2 = [r, p] ∧ textState J c = completed ∧ s'.2 = [c, r, p] ∧ s'.1.read = some r ∧
        Opens S L P K J N r
  | .approver _, s, s' => s'.2 = s.2 ∨ ∃ p r, s.2 = [p] ∧ textState J r = responded ∧ s'.2 = [r, p]

/-- What holds of a party at every moment. -/
def FolderAlways : FolderRole ι → FolderParty Txt × List Txt → Prop
  | .device, s => Orderly J s.2 ∧
      ∀ c r p, s.2 = [c, r, p] → s.1.read = some r ∧ Opens S L P K J N r
  | .approver _, s => Orderly J s.2

/-- The session was completed with the response that the approver wrote. -/
def Approved (s : FolderParty Txt × List Txt) : Prop := ∃ c r p, s.2 = [c, r, p] ∧
    s.1.wrote = some r

/-- The answers, where an approver writes only while the session is pending. -/
def FolderTrans (i : FolderRole ι) (c : SessionCall H B W Txt) (s : FolderParty Txt × List Txt)
    (a : c.Ans) (s' : FolderParty Txt × List Txt) : Prop :=
  (∃ ev, (sessionEnv H B W Txt).step c ev s = some (a, s')) ∧
    ∀ j, i = .approver j → ∀ text, c = .replaceFile text → IsPending J s.2

abbrev SafeFor {α : Type} (i : FolderRole ι)
    (Q : Except VaultException α → FolderParty Txt × List Txt → Prop) (p : SessionProg H B W Txt α)
    (d : FolderParty Txt) (g : List Txt) : Prop :=
  Safe (FolderTrans J i) (Interfere (FolderRely J i)) (FolderGuarantee S L P K J N i) Q p (d, g)

end

section
variable {J : JsonText Txt} {ι : Type}

theorem folderRely_refl (i : FolderRole ι) (g : List Txt) : FolderRely J i g g := by
  cases i with
  | device => exact .inl rfl
  | approver j => exact ⟨List.suffix_rfl, id⟩

theorem FolderRely.trans {i : FolderRole ι} {g₁ g₂ g₃ : List Txt} (h : FolderRely J i g₁ g₂)
    (h' : FolderRely J i g₂ g₃) : FolderRely J i g₁ g₃ := by
  cases i with
  | device =>
    rcases h with rfl | ⟨p, r, rfl, hr, rfl⟩
    · exact h'
    · rcases h' with rfl | ⟨p', r', hp, -, -⟩
      · exact .inr ⟨p, r, rfl, hr, rfl⟩
      · cases hp
  | approver j => exact ⟨h.1.trans h'.1, fun ho => h'.2 (h.2 ho)⟩

/-- A completed session stays as it is. -/
theorem FolderRely.completed {j : ι} {c r p : Txt} {g : List Txt}
    (h : FolderRely J (.approver j) [c, r, p] g) (ho : Orderly J [c, r, p]) : g = [c, r, p] := by
  obtain ⟨hs, hg⟩ := h
  have hlen : g.length ≤ 3 := by
    have hl := List.IsSuffix.length_le (hg ho)
    rw [List.length_map] at hl
    exact hl
  exact (hs.eq_of_length_le hlen).symm

end

/-! ## Rules for the calls -/

section
variable {F E : Type} [Field F] [AddCommGroup E] [Module F E] [DecidableEq F] [DecidableEq E]
  {S : Suite F E} {L : Ckvf H B W} {P : PairingPackage H B W} {K : SessionTexts H B W}
  {J : JsonText Txt} {N : NewDevice} {ι α β : Type} {i : FolderRole ι} {d : FolderParty Txt}
  {g : List Txt} {Q : Except VaultException β → FolderParty Txt × List Txt → Prop}

theorem SafeFor.mono {p : SessionProg H B W Txt β} {g' : List Txt}
    (h : SafeFor S L P K J N i Q p d g)
    (hr : FolderRely J i g g') : SafeFor S L P K J N i Q p d g' :=
  Safe.mono (fun h1 h2 => ⟨h2.1.trans h1.1, h1.2.trans h2.2⟩) h ⟨rfl, hr⟩

theorem folderGuarantee_refl (s : FolderParty Txt × List Txt) :
    FolderGuarantee S L P K J N i s s := by
  cases i with
  | device => exact .inl ⟨rfl, .inl rfl⟩
  | approver j => exact .inl rfl

/-- A call that is no access to the file. -/
def Quiet : SessionCall H B W Txt → Prop
  | .readFile | .replaceFile _ => False
  | _ => True

theorem safe_quiet {c : SessionCall H B W Txt} (hc : Quiet c) {k : c.Ans → SessionProg H B W Txt β}
    (h : ∀ a, SafeFor S L P K J N i Q (k a) d g) : SafeFor S L P K J N i Q (.call c k) d g := by
  intro s hi a s₂ ht
  obtain ⟨d₁, g₁⟩ := s
  obtain ⟨hd, hr⟩ := hi
  obtain ⟨⟨ev, hs⟩, -⟩ := ht
  dsimp only at hd hr
  subst hd
  have hstep := session_step hs
  have hsame : s₂ = (d₁, g₁) := by
    cases c with
    | readFile | replaceFile text => cases hc
    | _ => exact hstep
  subst hsame
  exact ⟨folderGuarantee_refl _, (h a).mono hr⟩

theorem safe_raise (hQ : ∀ e s, Q (.error e) s) (e : VaultException) :
    SafeFor S L P K J N i Q (.raise e) d g := fun s _ => hQ e s

theorem safe_ofExcept (hQ : ∀ e s, Q (.error e) s) {x : Except VaultException α}
    {f : α → SessionProg H B W Txt β} (h : ∀ a, x = .ok a → SafeFor S L P K J N i Q (f a) d g) :
    SafeFor S L P K J N i Q (.ofExcept x >>= f) d g := by
  cases x with
  | ok a => exact h a rfl
  | error e => exact safe_raise hQ e

theorem safe_vault (hQ : ∀ e s, Q (.error e) s) {f : UnlockedVault H B W → SessionProg H B W Txt β}
    (h : ∀ v, SafeFor S L P K J N i Q (f v) d g) :
    SafeFor S L P K J N i Q (Folder.vault >>= f) d g := by
  apply safe_quiet (c := .getVault) trivial
  intro a
  cases a with
  | none => exact safe_raise hQ _
  | some v => exact h v

/-- `readSession` gives an object that the file had, or the session is not there. -/
theorem safe_readSession (hQ : ∀ e s, Q (.error e) s) {sessionId : String}
    {f : Option Json.Obj → SessionProg H B W Txt β}
    (hg : ∀ g', FolderRely J i g g' → ∀ d', FolderGuarantee S L P K J N i (d, g') (d', g'))
    (hnone : SafeFor S L P K J N i Q (f none) d g)
    (hsome : ∀ text rest m, FolderRely J i g (text :: rest) → J.decode text = some (.obj m) →
      SafeFor S L P K J N i Q (f (some m)) { d with read := some text } (text :: rest)) :
    SafeFor S L P K J N i Q (readSession J sessionId >>= f) d g := by
  unfold readSession
  rw [Prog.bind_assoc]
  apply safe_ofExcept hQ
  intro _ _
  apply safe_quiet (c := .fileExists) trivial
  intro found
  cases found with
  | false => exact hnone
  | true =>
    intro t hi a s₂ ht
    obtain ⟨d₁, g₁⟩ := t
    obtain ⟨hd, hr⟩ := hi
    obtain ⟨⟨ev, hs⟩, -⟩ := ht
    dsimp only at hd hr
    subst hd
    rcases session_step hs with ⟨text, rest, hg₁, ha, hs₂⟩ | ⟨⟨e, ha⟩, hs₂⟩
    · subst ha hs₂
      refine ⟨hg _ hr _, ?_⟩
      subst hg₁
      show SafeFor S L P K J N i Q
          ((Prog.ofExcept (parseSession J text) >>= fun m => pure (some m)) >>= f) _ _
      rw [Prog.bind_assoc]
      apply safe_ofExcept hQ
      intro m hm
      refine hsome text rest m hr ?_
      unfold parseSession at hm
      split at hm
      · cases hm
      · rename_i m' hdec
        cases hm
        exact hdec
      · cases hm
    · subst ha hs₂
      exact ⟨folderGuarantee_refl _, safe_raise hQ _⟩

theorem safe_writeSession (hQ : ∀ e s, Q (.error e) s) {sessionId : String} {body : Json}
    {f : Unit → SessionProg H B W Txt β}
    (h : ∀ g', FolderRely J i g g' → (∀ j, i = .approver j → IsPending J g') →
      FolderGuarantee S L P K J N i (d, g')
          ({ d with wrote := some (J.encode body) }, J.encode body :: g') ∧
        SafeFor S L P K J N i Q (f ()) { d with wrote := some (J.encode body) }
            (J.encode body :: g')) :
    SafeFor S L P K J N i Q (writeSession J sessionId body >>= f) d g := by
  unfold writeSession
  rw [Prog.bind_assoc]
  apply safe_ofExcept hQ
  intro _ _ t hi a s₂ ht
  obtain ⟨d₁, g₁⟩ := t
  obtain ⟨hd, hr⟩ := hi
  obtain ⟨⟨ev, hs⟩, hp⟩ := ht
  dsimp only at hd hr
  subst hd
  rcases session_step hs with ⟨ha, hs₂⟩ | ⟨⟨e, ha⟩, hs₂⟩
  · subst ha hs₂
    exact h g₁ hr fun j hj => hp j hj _ rfl
  · subst ha hs₂
    exact ⟨folderGuarantee_refl _, safe_raise hQ _⟩

/-- Another poll, unless it is too late. -/
theorem safe_again (hQ : ∀ e s, Q (.error e) s) {deadline : Int} {e : VaultException}
    {p : SessionProg H B W Txt α} {f : α → SessionProg H B W Txt β}
    (h : SafeFor S L P K J N i Q (p >>= f) d g) :
    SafeFor S L P K J N i Q ((do
      let t ← now
      if t > deadline then .raise e
      else
        delay
        p) >>= f) d g := by
  rw [Prog.bind_assoc]
  apply safe_quiet (c := .now) trivial
  intro t
  by_cases ht : t > deadline
  · show SafeFor S L P K J N i Q ((if t > deadline then Prog.raise e else _) >>= f) d g
    rw [if_pos ht]
    exact safe_raise hQ e
  · show SafeFor S L P K J N i Q
        ((if t > deadline then Prog.raise e else delay >>= fun _ => p) >>= f) d g
    rw [if_neg ht, Prog.bind_assoc]
    apply safe_quiet (c := .delay) trivial
    intro _
    exact h

end

/-! ## The new device -/

section
variable {F E : Type} [Field F] [AddCommGroup E] [Module F E] [DecidableEq F] [DecidableEq E]
  {S : Suite F E} {L : Ckvf H B W} {P : PairingPackage H B W} {K : SessionTexts H B W}
  {J : JsonText Txt} {N : NewDevice} {ι β : Type} {d : FolderParty Txt} {g : List Txt}
  {Q : Except VaultException β → FolderParty Txt × List Txt → Prop}

/-- The session is not completed. -/
def Waiting (J : JsonText Txt) (g : List Txt) : Prop :=
  (∃ p, g = [p] ∧ textState J p = pending) ∨
    ∃ r p, g = [r, p] ∧ textState J r = responded ∧ textState J p = pending

theorem Waiting.rely {g' : List Txt} (h : Waiting J g)
    (hr : FolderRely J (.device : FolderRole ι) g g') : Waiting J g' := by
  rcases hr with rfl | ⟨p, r, rfl, hr, rfl⟩
  · exact h
  · rcases h with ⟨p', hp, hpend⟩ | ⟨r', p', hp, -⟩
    · cases hp
      exact .inr ⟨r, p, rfl, hr, hpend⟩
    · cases hp

theorem Waiting.read (h : Waiting J g) (d' : FolderParty Txt) :
    FolderGuarantee S L P K J N (.device : FolderRole ι) (d, g) (d', g) := by
  refine .inl ⟨rfl, .inr ?_⟩
  rcases h with ⟨p, rfl, -⟩ | ⟨r, p, rfl, -⟩
  · show 1 < 3
    omega
  · show 2 < 3
    omega

/-- The loop ends with the response that the file has then. -/
theorem safe_awaitPolls (hQ : ∀ e s, Q (.error e) s) {sessionId : String} {expiresAt : Int}
    {f : Json.Obj → SessionProg H B W Txt β}
    (h : ∀ d r p m, d.read = some r → J.decode r = some (.obj m) → textState J r = responded →
      textState J p = pending → SafeFor S L P K J N (.device : FolderRole ι) Q (f m) d [r, p])
    (n : Nat) (hw : Waiting J g) :
    SafeFor S L P K J N (.device : FolderRole ι) Q
        (awaitPolls J sessionId expiresAt n >>= f) d g := by
  induction n generalizing d g with
  | zero =>
    apply safe_quiet (c := .polling) trivial
    intro a
    exact a.elim
  | succ n ih =>
    rw [awaitPolls, Prog.bind_assoc]
    apply safe_readSession hQ
    · intro g' hr d'
      exact (hw.rely hr).read d'
    · exact safe_again hQ (ih hw)
    · intro text rest m hr hdec
      have hw' := hw.rely hr
      have hstate : textState J text = stateOf m := by
        unfold textState
        rw [hdec]
      dsimp only [Option.bind_some]
      split
      · rename_i body hs heq
        cases heq
        rcases hw' with ⟨p, hp, hpend⟩ | ⟨r, p, hp, hresp, hpend⟩
        · cases hp
          rw [hpend] at hstate
          rw [← hstate] at hs
          exact absurd hs (by decide)
        · cases hp
          exact h _ text p m rfl hdec hresp hpend
      · exact safe_raise hQ _
      · exact safe_again hQ (ih hw')

theorem textState_pendingBody (ya : Bytes) (expiresAt : Int) :
    textState J (J.encode (pendingBody L K N ya expiresAt)) = pending := by
  unfold pendingBody
  rw [textState_encode]
  simp [stateOf, Json.Obj.get?, Json.asString, pending]

theorem textState_completedBody : textState J (J.encode completedBody) = completed := by
  unfold completedBody
  rw [textState_encode]
  simp [stateOf, Json.Obj.get?, Json.asString, completed]

/-- **The new device completes the session with the response it has opened.** -/
theorem safe_start {Q : Except VaultException Unit → FolderParty Txt × List Txt → Prop}
    (hQ : ∀ r s, Q r s) (polls : Nat) :
    SafeFor S L P K J N (.device : FolderRole ι) Q
        ((SessionOp.start polls).prog S L P K J N) d [] := by
  have herr : ∀ e s, Q (.error e) s := fun e s => hQ _ s
  show SafeFor S L P K J N _ Q (startFolderPairing S L P K J N >>= _) d []
  unfold startFolderPairing
  rw [Prog.bind_assoc]
  apply safe_ofExcept herr
  intro state hstate
  apply safe_quiet (c := .now) trivial
  intro t
  show SafeFor S L P K J N _ Q ((writeSession J N.sessionId _ >>= fun _ => pure _) >>= _) d []
  rw [Prog.bind_assoc]
  apply safe_writeSession herr
  intro g' hr _
  -- nobody answers before there is a session
  have hg' : g' = [] := by
    rcases hr with rfl | ⟨p, r, hp, -⟩
    · rfl
    · cases hp
  subst hg'
  have hpend := textState_pendingBody (J := J) (L := L) (K := K) (N := N) state.ya
    (t + N.expiresInSeconds * 1000000)
  refine ⟨.inr (.inl ⟨rfl, _, hpend, rfl⟩), ?_⟩
  show SafeFor S L P K J N _ Q
      (awaitFolderResponse S L P K J polls N.sessionId N.identityId state _ >>= _)
    _ _
  unfold awaitFolderResponse
  rw [Prog.bind_assoc]
  apply safe_awaitPolls herr
  · intro d r p m hread hdec hresp hp
    rw [Prog.bind_assoc]
    apply safe_ofExcept herr
    intro opened hopen
    rw [Prog.bind_assoc]
    apply safe_writeSession herr
    intro g' hr _
    -- nobody answers after the response has been read
    have hg' : g' = [r, p] := by
      rcases hr with rfl | ⟨p', r', hp', -⟩
      · rfl
      · cases hp'
    subst hg'
    refine ⟨.inr (.inr ⟨_, r, p, rfl, textState_completedBody, rfl, hread, ?_⟩), ?_⟩
    · exact ⟨m, state, opened, hdec, hstate, hopen⟩
    · intro s _
      exact hQ _ s
  · exact .inl ⟨_, rfl, hpend⟩

end

/-! ## The approvers -/

section
variable {F E : Type} [Field F] [AddCommGroup E] [Module F E] [DecidableEq F] [DecidableEq E]
  {S : Suite F E} {L : Ckvf H B W} {P : PairingPackage H B W} {K : SessionTexts H B W}
  {J : JsonText Txt} {N : NewDevice} {ι : Type} {j : ι} {d : FolderParty Txt} {g : List Txt}
  {Q : Except VaultException Unit → FolderParty Txt × List Txt → Prop}

theorem textState_respondedBody (identityId : String) (yb : Bytes)
    (vekBox tag : PairingBox) (sig : Bytes) (container : String) :
    textState J (J.encode (respondedBody L identityId yb vekBox tag sig container)) =
        responded := by
  unfold respondedBody
  rw [textState_encode]
  simp [stateOf, Json.Obj.get?, Json.asString, responded]

/-- The approver has a response to write, and has not touched the file. -/
def Ready (J : JsonText Txt) (j : ι) (d : FolderParty Txt) (g : List Txt) :
    Except VaultException Json → FolderParty Txt × List Txt → Prop
  | .ok body, s => textState J (J.encode body) = responded ∧ s.1 = d ∧
      FolderRely J (.approver j) g s.2
  | .error _, _ => True

theorem safe_response {request : FolderPairingRequest} {password : Bytes} :
    SafeFor S L P K J N (.approver j) (Ready J j d g) (response S L P K request password) d g := by
  have hQ : ∀ e s, Ready J j d g (.error e) s := fun _ _ => trivial
  unfold response
  apply safe_quiet (c := .getVault) trivial
  intro a
  cases a with
  | none => exact safe_raise hQ _
  | some v =>
    dsimp only [Prog.bind]
    split
    · exact safe_raise hQ _
    · apply safe_quiet (c := .randomBytes 64) trivial
      intro random64
      apply safe_ofExcept hQ
      intro answer _
      apply safe_quiet (c := .randomBytes 12) trivial
      intro iv
      apply safe_ofExcept hQ
      intro tag _
      apply safe_vault hQ
      intro unlocked
      apply safe_quiet (c := .randomBytes 12) trivial
      intro iv'
      apply safe_ofExcept hQ
      intro vekBox _
      apply safe_quiet (c := .sign _) trivial
      intro r
      apply safe_ofExcept hQ
      intro sig _
      apply safe_vault hQ
      intro unlocked'
      apply safe_ofExcept hQ
      intro c _ t hi
      obtain ⟨d', g'⟩ := t
      obtain ⟨hd, hr⟩ := hi
      exact ⟨textState_respondedBody .., hd, hr⟩

/-- The polls end normally only when the session is completed. -/
theorem safe_approvePolls (hQ : ∀ e s, Q (.error e) s) {sessionId : String} {deadline : Int}
    {f : Unit → SessionProg H B W Txt Unit} {r : Txt} (hresp : textState J r = responded)
    (h : ∀ d c p, d.wrote = some r → Orderly J [c, r, p] →
      SafeFor S L P K J N (.approver j) Q (f ()) d [c, r, p])
    (n : Nat) (hmem : r ∈ g) (hd : d.wrote = some r) (ho : Orderly J g) :
    SafeFor S L P K J N (.approver j) Q (approvePolls J sessionId deadline n >>= f) d g := by
  induction n generalizing d g with
  | zero =>
    apply safe_quiet (c := .polling) trivial
    intro a
    exact a.elim
  | succ n ih =>
    rw [approvePolls, Prog.bind_assoc]
    apply safe_readSession hQ
    · intro g' _ d'
      exact .inl rfl
    · exact safe_again hQ (ih hmem hd ho)
    · intro text rest m hr hdec
      -- the answer that was pushed is still under what is read
      have ho' : Orderly J (text :: rest) := hr.2 ho
      have hmem' : r ∈ text :: rest := hr.1.subset hmem
      have hstate : textState J text = stateOf m := by
        unfold textState
        rw [hdec]
      dsimp only [Option.bind_some]
      split
      · rename_i hs
        rw [← hstate] at hs
        -- of the four states of a session only the collected one is looked for
        rcases ho'.cases with hg | ⟨p, hg, hp⟩ | ⟨r', p, hg, hr', -⟩ | ⟨c, r', p, hg, hc, hr', hp⟩
        · cases hg
        · cases hg
          rw [hp] at hs
          exact absurd hs (by decide)
        · cases hg
          rw [hr'] at hs
          exact absurd hs (by decide)
        · -- the only answered session under it is this approver's
          have hsame : r = r' := by
            rw [hg] at hmem'
            rcases List.mem_cons.1 hmem' with rfl | hm
            · rw [hc] at hresp
              exact absurd hresp (by decide)
            · rcases List.mem_cons.1 hm with rfl | hm
              · rfl
              · obtain rfl := List.mem_singleton.1 hm
                rw [hp] at hresp
                exact absurd hresp (by decide)
          subst hsame
          rw [hg] at ho' ⊢
          exact h _ c p hd ho'
      · exact safe_again hQ (ih hmem' hd ho')

/-- **An approver's call ends normally only when its response was the one that was opened.** -/
theorem safe_approve (hQ : ∀ e s, Q (.error e) s) (hdone : ∀ s, Approved s → Q (.ok ()) s)
    {password : Bytes} {timeout : Int} {polls : Nat} (ho : Orderly J g) :
    SafeFor S L P K J N (.approver j) Q
      ((SessionOp.approve password timeout polls).prog S L P K J N) d g := by
  show SafeFor S L P K J N _ Q (fetchFolderPairing L J N.sessionId >>= _) d g
  unfold fetchFolderPairing
  rw [Prog.bind_assoc]
  have hafter : ∀ d g request, Orderly J g → SafeFor S L P K J N (.approver j) Q
      (approveFolderPairing S L P K J polls request password timeout) d g := by
    intro d g request ho
    unfold approveFolderPairing
    refine safe_bind (fun s => ⟨rfl, folderRely_refl _ _⟩) (safe_response.imp fun r s hr => ?_)
    cases r with
    | error e => exact hQ e s
    | ok body =>
      obtain ⟨d', g'⟩ := s
      obtain ⟨hresp, hd, hrely⟩ := hr
      dsimp only at hd hrely
      subst hd
      apply safe_writeSession hQ
      intro g₂ hr₂ hp
      obtain ⟨p, hg₂, hpend⟩ := (hr₂.2 (hrely.2 ho)).of_pending (hp j rfl)
      subst hg₂
      refine ⟨.inr ⟨p, _, rfl, hresp, rfl⟩, ?_⟩
      apply safe_quiet (c := .now) trivial
      intro t
      show SafeFor S L P K J N _ Q (approvePolls J request.sessionId (t + timeout) polls) _ _
      rw [← Prog.bind_ret (approvePolls J request.sessionId (t + timeout) polls)]
      refine safe_approvePolls hQ hresp ?_ polls List.mem_cons_self rfl
          (orderly_responded hpend hresp)
      intro d c p hd hord u hi
      obtain ⟨d', g'⟩ := u
      obtain ⟨hd', hr'⟩ := hi
      dsimp only at hd' hr'
      have hg' := hr'.completed hord
      exact hdone _ ⟨c, _, p, hg', hd' ▸ hd⟩
  apply safe_readSession hQ
  · intro g' _ d'
    exact .inl rfl
  · exact safe_raise hQ _
  · intro text rest m hr _
    apply safe_ofExcept hQ
    intro request _
    exact hafter _ _ request (hr.2 ho)

end

/-! ## Runs -/

section
variable {F E : Type} [Field F] [AddCommGroup E] [Module F E] [DecidableEq F] [DecidableEq E]
  (S : Suite F E) (L : Ckvf H B W) (P : PairingPackage H B W) (K : SessionTexts H B W)
  (J : JsonText Txt) (N : NewDevice) {ι : Type}

/-- What a session may do: the new device starts while there is no session file, and does nothing
else, and the approvers fetch and approve, any number of times. -/
def inSession (w : FolderSession ι H B W Txt) : Act (FolderRole ι) SessionOp
    (SessionEv H B W) → Bool
  | .start .device (.start _) => w.shared.isEmpty
  | .start (.approver _) (.approve ..) => true
  | .start _ _ => false
  | _ => true

/-- An approver is about to write, and the session is not pending any more. -/
def late (w : FolderSession ι H B W Txt) (i : FolderRole ι) : Bool :=
  match i, w.job i with
  | .approver _, some (_, .call (.replaceFile _) _) => !decide (IsPending J w.shared)
  | _, _ => false

/-- What it may do where no approval is late. -/
def inTime (w : FolderSession ι H B W Txt)
    (a : Act (FolderRole ι) SessionOp (SessionEv H B W)) : Bool :=
  inSession w a && match a with
    | .call i _ => !late J w i
    | _ => true

/-- Nobody has done anything. -/
def freshSession : FolderSession ι H B W Txt where
  shared := []
  dev _ := {}
  job _ := none

section
variable {S L P K J N}

theorem FolderAlways.orderly {i : FolderRole ι} {s : FolderParty Txt × List Txt}
    (h : FolderAlways S L P K J N i s) : Orderly J s.2 := by
  cases i with
  | device => exact h.1
  | approver j => exact h

theorem Orderly.answered {p r : Txt} (ho : Orderly J [p]) (hr : textState J r = responded) :
    Orderly J [r, p] := by
  rcases ho.cases with h | ⟨p', h, hp⟩ | ⟨r', p', h, -⟩ | ⟨c, r', p', h, -⟩
  · cases h
  · cases h
    exact orderly_responded hp hr
  · cases h
  · cases h

theorem Orderly.collected {p r c : Txt} (ho : Orderly J [r, p]) (hc : textState J c = completed) :
    Orderly J [c, r, p] := by
  rcases ho.cases with h | ⟨p', h, hp⟩ | ⟨r', p', h, hr, hp⟩ | ⟨c, r', p', h, -⟩
  · cases h
  · cases h
  · cases h
    exact orderly_completed hp hr hc
  · cases h

theorem FolderAlways.mono {i : FolderRole ι} {d : FolderParty Txt} {g g' : List Txt}
    (h : FolderAlways S L P K J N i (d, g)) (hr : FolderRely J i g g') :
    FolderAlways S L P K J N i (d, g') := by
  cases i with
  | device =>
    rcases hr with rfl | ⟨p, r, rfl, hr, rfl⟩
    · exact h
    · refine ⟨h.1.answered hr, ?_⟩
      intro c r' p' hg
      cases hg
  | approver j => exact hr.2 h

/-- What a party does, the others may rely on. -/
theorem FolderGuarantee.rely {i : FolderRole ι} {s s' : FolderParty Txt × List Txt}
    (h : FolderAlways S L P K J N i s) (hg : FolderGuarantee S L P K J N i s s') :
    (∀ j ≠ i, FolderRely J j s.2 s'.2) ∧ FolderAlways S L P K J N i s' := by
  obtain ⟨d, g⟩ := s
  obtain ⟨d', g'⟩ := s'
  cases i with
  | device =>
    rcases hg with ⟨hsame, hd⟩ | ⟨hempty, p, hp, hg'⟩ | ⟨c, r, p, hg, hc, hg', hread, hopens⟩
    · -- the file is as before
      dsimp only at hsame hd
      subst hsame
      refine ⟨fun j _ => folderRely_refl j _, h.1, ?_⟩
      intro c r p hg
      rcases hd with rfl | hlen
      · exact h.2 c r p hg
      · dsimp only at hg
        rw [hg] at hlen
        exact absurd hlen (by simp)
    · -- the session is opened on an empty file
      dsimp only at hempty hg'
      subst hempty hg'
      refine ⟨?_, orderly_pending hp, ?_⟩
      · rintro (_ | j) hj
        · exact absurd rfl hj
        · exact ⟨List.nil_suffix, fun _ => orderly_pending hp⟩
      · intro c r p' hg
        cases hg
    · -- the response is collected, and what it opens is the vault
      dsimp only at hg hg' hread
      subst hg hg'
      refine ⟨?_, h.1.collected hc, ?_⟩
      · rintro (_ | j) hj
        · exact absurd rfl hj
        · exact ⟨List.suffix_cons c [r, p], fun ho => ho.collected hc⟩
      · intro c' r' p' hg
        cases hg
        exact ⟨hread, hopens⟩
  | approver k =>
    rcases hg with hsame | ⟨p, r, hg, hr, hg'⟩
    · dsimp only at hsame
      subst hsame
      exact ⟨fun j _ => folderRely_refl j _, h⟩
    · -- the first answer to the session
      dsimp only at hg hg'
      subst hg hg'
      have ho : Orderly J [r, p] := Orderly.answered h hr
      refine ⟨?_, ho⟩
      rintro (_ | j) _
      · exact .inr ⟨p, r, rfl, hr, rfl⟩
      · exact ⟨List.suffix_cons r [p], fun _ => ho⟩

end

variable [DecidableEq ι]

def folderRoles : Roles (ι := FolderRole ι) (folderPairing S L P K J N)
    fun w a => inTime J w a = true where
  T := FolderTrans J
  Rely := FolderRely J
  G := FolderGuarantee S L P K J N
  Always := FolderAlways S L P K J N
  Idle _ _ := True
  Post i _ r s := r = .ok () → (∃ j, i = .approver j) → Approved s
  rely_refl := folderRely_refl
  rely_trans := FolderRely.trans
  always_mono := FolderAlways.mono
  idle_mono _ _ := trivial
  guarantee := FolderGuarantee.rely
  calls {w i ev op c k a s'} hc hj hs := by
    refine ⟨⟨ev, hs⟩, ?_⟩
    rintro j rfl text rfl
    have hin : late J w (.approver j) = false := by simpa [inTime, inSession] using hc
    unfold late at hin
    rw [hj] at hin
    simpa using hin
  starts {w i op} hc _ ha _ := by
    have hs : inSession w (.start i op) = true := by
      unfold inTime at hc
      exact (Bool.and_eq_true_iff.1 hc).1
    cases i with
    | device =>
      cases op with
      | approve password timeout polls => cases hs
      | start polls =>
        have hempty : w.shared = [] := List.isEmpty_iff.1 hs
        rw [hempty]
        apply safe_start
        intro r s
        refine ⟨fun _ hj => ?_, trivial⟩
        obtain ⟨j, hj⟩ := hj
        cases hj
    | approver j =>
      cases op with
      | start polls => cases hs
      | approve password timeout polls =>
        apply safe_approve
        · intro e s
          refine ⟨fun he => ?_, trivial⟩
          cases he
        · intro s hs
          exact ⟨fun _ _ => hs, trivial⟩
        · exact ha
  crashes _ h := ⟨h, trivial⟩

/-- What a session is to be: its states come in order and each once, and a call of an approver ends
normally only when the new device has collected and opened what that approver wrote. -/
structure SessionSpec (w : FolderSession ι H B W Txt) : Prop where
  orderly : Orderly J w.shared
  approved : ∀ j op, w.job (.approver j) = some (op, .ret ()) → ∃ text,
    (w.dev (.approver j)).wrote = some text ∧ (w.dev .device).read = some text ∧
      Opens S L P K J N text ∧ w.shared.head?.bind (textState J) = completed

/-- **A session in which no approval is late is as it is to be**, after every run. -/
theorem folder_session {w : FolderSession ι H B W Txt}
    (h : (folderPairing S L P K J N).Reaches (fun w a => inTime J w a = true) freshSession w) :
    SessionSpec S L P K J N w := by
  have hfresh : (folderRoles S L P K J N).Inv (freshSession : FolderSession ι H B W Txt) := by
    refine ⟨fun i => ?_, fun i => trivial⟩
    have horderly : Orderly J [] := ⟨[completed, responded, pending], rfl⟩
    cases i with
    | device =>
      refine ⟨horderly, ?_⟩
      intro c r p hg
      cases hg
    | approver j => exact horderly
  have hinv := (folderRoles S L P K J N).inv_run hfresh h
  have hdevice := hinv.always .device
  refine ⟨hdevice.1, ?_⟩
  intro j op hj
  have hpost := (folderRoles S L P K J N).post_of_ended hinv (r := .ok ()) hj
  obtain ⟨c, r, p, hg, hw⟩ := hpost rfl ⟨j, rfl⟩
  obtain ⟨hread, hopens⟩ := hdevice.2 c r p hg
  refine ⟨r, hw, hread, hopens, ?_⟩
  dsimp only at hg
  have ho := hdevice.1
  dsimp only at ho
  rw [hg] at ho ⊢
  rcases ho.cases with h | ⟨p', h, -⟩ | ⟨r', p', h, -⟩ | ⟨c', r', p', h, hc, -⟩
  · cases h
  · cases h
  · cases h
  · cases h
    exact hc

end

/-! ## Two approvers -/

open Ckvf.Symbolic

def symbolicTexts : SessionTexts Digest Body Wrap where
  containerText _ := "container"
  parseContainer s := if s = "container" then .ok pairedVault.container
      else .error ⟨"ERR_JSON", none⟩
  iso8601 _ := "2026-01-01T00:05:00.000Z"

def phone : NewDevice where
  sessionId := "0123456789abcdef"
  identityId := "alice"
  deviceName := "phone"
  deviceId := "device"
  requestedTier := pairingTier
  password := utf8 "123456"
  random64 := List.replicate 64 4
  expiresInSeconds := 300

abbrev phonePairing := folderPairing seven symbolic symbolicPackage symbolicTexts jsonText phone

abbrev PhoneSession := FolderSession Bool Digest Body Wrap Json

abbrev PhoneAct := Act (FolderRole Bool) SessionOp (SessionEv Digest Body Wrap)

/-- The new device writes its request. -/
def requestActs : List PhoneAct :=
  [.start .device (.start 1), .call .device (.time 0), .call .device .ok]

def fetchActs (i : Bool) : List PhoneAct :=
  [.start (.approver i) (.approve (utf8 "123456") 1000 1), .call (.approver i) .ok,
    .call (.approver i) .ok]

/-- The approver writes its response, with random bytes of its own. -/
def respondActs (i : Bool) (x : UInt8) : List PhoneAct :=
  [.vault (some pairedVault), .bytes (List.replicate 64 x), .bytes (List.replicate 12 x),
    .vault (some pairedVault), .bytes (List.replicate 12 x),
        .signed (.ok (signatureOf (bytesOf 2 0))),
    .vault (some pairedVault), .ok].map (.call (.approver i))

def collectActs : List PhoneAct := [.call .device .ok, .call .device .ok]

/-- The new device writes that the session is completed, and the approver sees it. -/
def completeActs (i : Bool) : List PhoneAct :=
  [.call .device .ok, .call (.approver i) (.time 0), .call (.approver i) .ok,
      .call (.approver i) .ok]

/-- The approver's call has ended normally. -/
def returned (w : PhoneSession) (i : Bool) : Bool :=
  match w.job (.approver i) with
  | some (_, .ret ()) => true
  | _ => false

theorem returned_job {w : PhoneSession} {i : Bool} (h : returned w i = true) :
    ∃ op, w.job (.approver i) = some (op, .ret ()) := by
  unfold returned at h
  split at h
  · rename_i op hj
    exact ⟨op, hj⟩
  · cases h

/-- The approver's call has ended with this error. -/
def refused (w : PhoneSession) (i : Bool) : Option String :=
  match w.job (.approver i) with
  | some (_, .raise e) => e.code
  | _ => none

/-- The second approver comes when the first one's response is there: it is refused, and the session
ends as if it had not come. -/
theorem folder_session_once : ∃ w : PhoneSession,
    phonePairing.Reaches (fun w a => inTime jsonText w a = true) freshSession w ∧
    (∃ op, w.job (.approver true) = some (op, .ret ())) ∧
    refused w false = some "pairing_session_already_responded" ∧
    SessionSpec seven symbolic symbolicPackage symbolicTexts jsonText phone w := by
  have hrun : ((phonePairing.execIf (inTime jsonText)
      (requestActs ++ fetchActs true ++ respondActs true 4 ++ fetchActs false ++ collectActs ++
        completeActs true) freshSession).any fun w => returned w true &&
          decide (refused w false = some "pairing_session_already_responded")) = true := by
    decide +kernel
  obtain ⟨w, hw, hdone⟩ := (Option.any_eq_true _ _).1 hrun
  rw [Bool.and_eq_true, decide_eq_true_eq] at hdone
  have hreach : phonePairing.Reaches (fun w a => inTime jsonText w a = true) freshSession w :=
    reaches_of_execIf (fun _ _ h => h) hw
  exact ⟨w, hreach, returned_job hdone.1, hdone.2,
    folder_session seven symbolic symbolicPackage symbolicTexts jsonText phone hreach⟩

/-- Both approvers fetch the pending request. The new device collects the first response, the second
approver replaces it, and returns normally when the new device has completed the session. -/
theorem folder_two_approvers : ∃ w : PhoneSession,
    phonePairing.Reaches (fun w a => inSession w a = true) freshSession w ∧
    ¬ Orderly jsonText w.shared ∧
    ∃ op, w.job (.approver false) = some (op, .ret ()) ∧
      (w.dev (.approver false)).wrote ≠ (w.dev .device).read := by
  have hrun : ((phonePairing.execIf inSession
      (requestActs ++ fetchActs true ++ fetchActs false ++ respondActs true 4 ++ collectActs ++
        respondActs false 5 ++ completeActs false) freshSession).any fun w =>
      returned w false && !decide (Orderly jsonText w.shared) &&
        decide ((w.dev (.approver false)).wrote ≠ (w.dev .device).read)) = true := by decide +kernel
  obtain ⟨w, hw, hdone⟩ := (Option.any_eq_true _ _).1 hrun
  rw [Bool.and_eq_true, Bool.and_eq_true, Bool.not_eq_true', decide_eq_false_iff_not,
    decide_eq_true_eq] at hdone
  obtain ⟨⟨hret, horder⟩, hread⟩ := hdone
  obtain ⟨op, hop⟩ := returned_job hret
  exact ⟨w, reaches_of_execIf (fun _ _ h => h) hw, horder, op, hop, hread⟩

end Pairing.Folder
