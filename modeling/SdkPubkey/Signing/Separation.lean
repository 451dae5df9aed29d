import SdkPubkey.Lib.Base64url
import SdkPubkey.Lib.Lines
import SdkPubkey.Signing.Texts

/-!
# Domain separation of signed texts

`SignedText` has every kind of text that an MSK or a device key signs, with its fields. All but the
pairing transcript are lines without newlines in them, told apart by the names of their lines. The
transcript has a session identifier that a scanned URI chose, so it is read from the end; its first
line differs from every `SComm/Pubkey/{version}/{operation}`.

* `text_inj`: signed bytes have one kind and one value of its fields.
* `envelope_signs`, `deviceRead_signs`, `recordSignature_signs`, `canonicalSignedUtf8_text`: what
  the code signs is such a text, and the fields that the caller does not choose have no newline.
-/

namespace Signing

open Ckvf Lib Vault Pairing

/-- A signed text by its fields. -/
inductive SignedText where
  | records (identityId vaultId : String) (generation : Nat) (generationHash : String)
  | envelope (operation principal : String) (timestamp : Int) (nonce payloadHash : String)
  | deviceRead (operation identityId vaultId : String) (timestamp : Int)
      (nonce payloadHash : String)
  | canonical (version : Int) (operation principal : String) (timestamp : Int)
      (nonce payloadHash : String)
  | transcript (sessionId identityId : String) (ya yb : Bytes) (confirmationTag : PairingBox)

/-- No newline in it. -/
def Newlineless (s : String) : Prop := '\n' ∉ s.toList

instance (s : String) : Decidable (Newlineless s) := inferInstanceAs (Decidable (_ ∉ _))

namespace SignedText

/-- The text; `encode` is base64url. -/
def text (encode : Bytes → String) : SignedText → String
  | records identityId vaultId generation generationHash =>
    vaultRecordsSigningText identityId vaultId generation generationHash
  | envelope operation principal timestamp nonce payloadHash =>
    envelopeText operation principal timestamp nonce payloadHash
  | deviceRead operation identityId vaultId timestamp nonce payloadHash =>
    deviceReadText operation identityId vaultId timestamp nonce payloadHash
  | canonical version operation principal timestamp nonce payloadHash =>
    Discovery.canonicalText version operation principal timestamp nonce payloadHash
  | transcript sessionId identityId ya yb confirmationTag =>
    Pairing.transcript encode sessionId identityId ya yb confirmationTag

/-- The bytes that are signed. -/
def bytes (encode : Bytes → String) (t : SignedText) : Bytes := utf8 (t.text encode)

/-- The fields have no newline, the session identifier of a transcript excepted. -/
def FieldsNewlineless : SignedText → Prop
  | records identityId vaultId _ generationHash =>
    Newlineless identityId ∧ Newlineless vaultId ∧ Newlineless generationHash
  | envelope operation principal _ nonce payloadHash =>
    Newlineless operation ∧ Newlineless principal ∧ Newlineless nonce ∧ Newlineless payloadHash
  | deviceRead operation identityId vaultId _ nonce payloadHash =>
    Newlineless operation ∧ Newlineless identityId ∧ Newlineless vaultId ∧ Newlineless nonce ∧
      Newlineless payloadHash
  | canonical _ operation principal _ nonce payloadHash =>
    Newlineless operation ∧ Newlineless principal ∧ Newlineless nonce ∧ Newlineless payloadHash
  | transcript _ identityId _ _ _ => Newlineless identityId

/-- An envelope is the canonical text of version 1. -/
def asCanonical : SignedText → SignedText
  | envelope operation principal timestamp nonce payloadHash =>
    canonical 1 operation principal timestamp nonce payloadHash
  | t => t

/-! ## Lines -/

/-- `SComm/Pubkey/{version}/{operation}`. -/
def header (version : Int) (operation : String) : String :=
  "SComm/Pubkey/" ++ toString version ++ "/" ++ operation

/-- The lines of a text that is not a transcript. -/
def lines : SignedText → List String
  | records identityId vaultId generation generationHash =>
    [header 1 vaultRecordsPut, "principal=" ++ identityId, "vault_id=" ++ vaultId,
      "generation=" ++ toString generation, "generation_hash=" ++ generationHash]
  | envelope operation principal timestamp nonce payloadHash =>
    [header 1 operation, "principal=" ++ principal, "timestamp=" ++ toString timestamp,
      "nonce=" ++ nonce, "payload_sha256=" ++ payloadHash]
  | deviceRead operation identityId vaultId timestamp nonce payloadHash =>
    [header 1 operation, "principal=" ++ identityId, "vault_id=" ++ vaultId,
      "timestamp=" ++ toString timestamp, "nonce=" ++ nonce, "payload_sha256=" ++ payloadHash]
  | canonical version operation principal timestamp nonce payloadHash =>
    [header version operation, "principal=" ++ principal, "timestamp=" ++ toString timestamp,
      "nonce=" ++ nonce, "payload_sha256=" ++ payloadHash]
  | transcript .. => []

/-- The lines of a transcript after the session identifier. -/
def transcriptTail (encode : Bytes → String) (identityId : String) (ya yb : Bytes)
    (tag : PairingBox) : List String :=
  ["identity=" ++ identityId, "requested_tier=" ++ pairingTier, "ya=" ++ encode ya,
    "yb=" ++ encode yb, "confirmation_tag=" ++ tag.wire encode, ""]

theorem text_lines (encode : Bytes → String) {t : SignedText} (h : t.lines ≠ []) :
    (t.text encode).toList = Lines.terminated '\n' (t.lines.map String.toList) := by
  have hone : (Int.repr 1).toList = ['1'] := by decide
  cases t with
  | transcript => exact absurd rfl h
  | records =>
    simp [text, lines, Lines.terminated, vaultRecordsSigningText, domainSeparator, header, hone]
  | envelope => simp [text, lines, Lines.terminated, envelopeText, domainSeparator, header, hone]
  | deviceRead =>
    simp [text, lines, Lines.terminated, deviceReadText, domainSeparator, header, hone]
  | canonical =>
    simp [text, lines, Lines.terminated, Discovery.canonicalText, Discovery.domainSeparator,
      Discovery.protocolName, header]

theorem text_transcript (encode : Bytes → String) (sessionId identityId : String) (ya yb : Bytes)
    (tag : PairingBox) :
    ((transcript sessionId identityId ya yb tag).text encode).toList =
      (pairingTranscriptHeader ++ "\n" ++ "session_id=" ++ sessionId).toList ++
        Lines.started '\n' ((transcriptTail encode identityId ya yb tag).map String.toList) := by
  have hnl : "\n".toList = ['\n'] := rfl
  have hnil : "".toList = [] := rfl
  show (Pairing.transcript encode sessionId identityId ya yb tag).toList = _
  unfold Pairing.transcript transcriptTail
  simp only [Lines.started, List.map_cons, List.map_nil, List.flatMap_cons, List.flatMap_nil,
    String.toList_append, hnl, hnil, List.append_assoc, List.cons_append, List.nil_append,
    List.append_nil]

/-! ## Fields without newlines -/

theorem newlineless_append {a b : String} : Newlineless (a ++ b) ↔
    Newlineless a ∧ Newlineless b := by
  simp [Newlineless]

theorem newlineless_int (i : Int) : Newlineless (toString i) :=
  not_mem_repr_int (by decide) (by decide) i

theorem newlineless_nat (n : Nat) : Newlineless (toString n) := not_mem_repr (by decide) n

theorem newlineless_header (version : Int) {operation : String} (h : Newlineless operation) :
    Newlineless (header version operation) := by
  have hn : Newlineless "SComm/Pubkey/" ∧ Newlineless "/" := by simp [Newlineless]
  simp only [header, newlineless_append]
  exact ⟨⟨⟨hn.1, newlineless_int version⟩, hn.2⟩, h⟩

/-- A line `name=value` is one line. -/
theorem newlineless_line {name value : String} (hn : Newlineless name) (hv : Newlineless value) :
    Newlineless (name ++ value) :=
  newlineless_append.2 ⟨hn, hv⟩

theorem lines_newlineless {t : SignedText} (h : t.FieldsNewlineless) :
    ∀ l ∈ t.lines.map String.toList, '\n' ∉ l := by
  have hl : ∀ l ∈ t.lines, Newlineless l := by
    cases t with
    | records identityId vaultId generation generationHash =>
      obtain ⟨hi, hv, hg⟩ := h
      have hop : Newlineless vaultRecordsPut := by simp [Newlineless, vaultRecordsPut]
      simp only [lines, List.forall_mem_cons]
      exact ⟨newlineless_header _ hop, newlineless_line (by simp [Newlineless]) hi,
        newlineless_line (by simp [Newlineless]) hv,
        newlineless_line (by simp [Newlineless]) (newlineless_nat _),
        newlineless_line (by simp [Newlineless]) hg, by simp⟩
    | envelope operation principal timestamp nonce payloadHash
    | canonical version operation principal timestamp nonce payloadHash =>
      obtain ⟨ho, hp, hn, hh⟩ := h
      simp only [lines, List.forall_mem_cons]
      exact ⟨newlineless_header _ ho, newlineless_line (by simp [Newlineless]) hp,
        newlineless_line (by simp [Newlineless]) (newlineless_int _),
        newlineless_line (by simp [Newlineless]) hn,
        newlineless_line (by simp [Newlineless]) hh, by simp⟩
    | deviceRead operation identityId vaultId timestamp nonce payloadHash =>
      obtain ⟨ho, hi, hv, hn, hh⟩ := h
      simp only [lines, List.forall_mem_cons]
      exact ⟨newlineless_header _ ho, newlineless_line (by simp [Newlineless]) hi,
        newlineless_line (by simp [Newlineless]) hv,
        newlineless_line (by simp [Newlineless]) (newlineless_int _),
        newlineless_line (by simp [Newlineless]) hn,
        newlineless_line (by simp [Newlineless]) hh, by simp⟩
    | transcript => simp [lines]
  intro l hm
  obtain ⟨s, hs, rfl⟩ := List.mem_map.1 hm
  exact hl s hs

theorem transcriptTail_newlineless {encode : Bytes → String} (he : ∀ b, Newlineless (encode b))
    {identityId : String} (hi : Newlineless identityId) (ya yb : Bytes) (tag : PairingBox) :
    ∀ l ∈ (transcriptTail encode identityId ya yb tag).map String.toList, '\n' ∉ l := by
  have hl : ∀ l ∈ transcriptTail encode identityId ya yb tag, Newlineless l := by
    have htier : Newlineless pairingTier := by simp [Newlineless, pairingTier]
    simp only [transcriptTail, List.forall_mem_cons]
    exact ⟨newlineless_line (by simp [Newlineless]) hi,
      newlineless_line (by simp [Newlineless]) htier,
      newlineless_line (by simp [Newlineless]) (he _),
      newlineless_line (by simp [Newlineless]) (he _),
      newlineless_line (by simp [Newlineless]) (he _), by simp [Newlineless], by simp⟩
  intro l hm
  obtain ⟨s, hs, rfl⟩ := List.mem_map.1 hm
  exact hl s hs

/-! ## Headers -/

theorem header_toList (version : Int) (operation : String) :
    (header version operation).toList =
      "SComm/Pubkey/".toList ++ ((toString version).toList ++ '/' :: operation.toList) := by
  have hs : "/".toList = ['/'] := rfl
  simp only [header, String.toList_append, hs, List.append_assoc, List.cons_append, List.nil_append]

theorem slashless_int (i : Int) : '/' ∉ (toString i).toList :=
  not_mem_repr_int (by decide) (by decide) i

theorem header_inj {v w : Int} {o p : String} (h : header v o = header w p) : v = w ∧ o = p := by
  have hl := congrArg String.toList h
  rw [header_toList, header_toList, List.append_cancel_left_eq] at hl
  obtain ⟨hv, ho⟩ := Lines.cons_inj (slashless_int v) (slashless_int w) hl
  exact ⟨Int.repr_injective (String.toList_inj.1 hv), String.toList_inj.1 ho⟩

/-- No version is the `pairing` of the transcript's first line. -/
theorem header_ne_transcript (v : Int) (o : String) : header v o ≠ pairingTranscriptHeader := by
  intro h
  have hl := congrArg String.toList h
  have ht : pairingTranscriptHeader.toList =
      "SComm/Pubkey/".toList ++ ("pairing".toList ++ '/' :: "transcript/v2".toList) := rfl
  rw [header_toList, ht, List.append_cancel_left_eq] at hl
  have hpairing : '/' ∉ "pairing".toList := by simp
  have hv := (Lines.cons_inj (slashless_int v) hpairing hl).1
  have hp : 'p' ∉ (toString v).toList := not_mem_repr_int (by decide) (by decide) v
  rw [hv] at hp
  simp at hp

/-! ## Kinds -/

/-- Two lines with the same name. -/
theorem line_inj {name a b : String} (h : name ++ a = name ++ b) : a = b := by
  have hl := congrArg String.toList h
  rw [String.toList_append, String.toList_append, List.append_cancel_left_eq] at hl
  exact String.toList_inj.1 hl

/-- Two lines whose names start differently. -/
theorem line_ne {m n a b : String} {c d : Char} (hm : m.toList.head? = some c)
    (hn : n.toList.head? = some d) (hcd : c ≠ d) : m ++ a ≠ n ++ b := by
  intro h
  have hl := congrArg (fun s => s.toList.head?) h
  simp only [String.toList_append, List.head?_append, hm, hn, Option.some_or] at hl
  exact hcd (Option.some.inj hl)

theorem records_inj {identityId vaultId : String} {generation : Nat} {generationHash : String}
    {u : SignedText} (h : (records identityId vaultId generation generationHash).lines = u.lines) :
    records identityId vaultId generation generationHash = u := by
  cases u with
  | records identityId' vaultId' generation' generationHash' =>
    simp only [lines, List.cons.injEq, and_true, true_and] at h
    obtain ⟨hi, hv, hg, hh⟩ := h
    rw [line_inj hi, line_inj hv, Nat.repr_injective (line_inj hg), line_inj hh]
  | envelope | canonical =>
    simp only [lines, List.cons.injEq] at h
    exact absurd h.2.2.1 (line_ne (c := 'v') (d := 't') rfl rfl (by decide))
  | deviceRead =>
    simp only [lines, List.cons.injEq] at h
    exact absurd h.2.2.2.1 (line_ne (c := 'g') (d := 't') rfl rfl (by decide))
  | transcript => simp [lines] at h

theorem deviceRead_inj {operation identityId vaultId : String} {timestamp : Int}
    {nonce payloadHash : String} {u : SignedText}
    (h : (deviceRead operation identityId vaultId timestamp nonce payloadHash).lines = u.lines) :
    deviceRead operation identityId vaultId timestamp nonce payloadHash = u := by
  cases u with
  | deviceRead operation' identityId' vaultId' timestamp' nonce' payloadHash' =>
    simp only [lines, List.cons.injEq, and_true] at h
    obtain ⟨ho, hi, hv, ht, hn, hh⟩ := h
    rw [(header_inj ho).2, line_inj hi, line_inj hv, Int.repr_injective (line_inj ht),
      line_inj hn, line_inj hh]
  | envelope | canonical =>
    simp only [lines, List.cons.injEq] at h
    exact absurd h.2.2.1 (line_ne (c := 'v') (d := 't') rfl rfl (by decide))
  | records =>
    simp only [lines, List.cons.injEq] at h
    exact absurd h.2.2.2.1 (line_ne (c := 't') (d := 'g') rfl rfl (by decide))
  | transcript => simp [lines] at h

theorem canonical_inj {version : Int} {operation principal : String} {timestamp : Int}
    {nonce payloadHash : String} {u : SignedText}
    (h : (canonical version operation principal timestamp nonce payloadHash).lines = u.lines) :
    canonical version operation principal timestamp nonce payloadHash = u.asCanonical := by
  cases u with
  | envelope | canonical =>
    simp only [lines, List.cons.injEq, and_true] at h
    obtain ⟨ho, hp, ht, hn, hh⟩ := h
    simp only [asCanonical, (header_inj ho).1, (header_inj ho).2, line_inj hp,
      Int.repr_injective (line_inj ht), line_inj hn, line_inj hh]
  | records | deviceRead =>
    simp only [lines, List.cons.injEq] at h
    exact absurd h.2.2.1 (line_ne (c := 't') (d := 'v') rfl rfl (by decide))
  | transcript => simp [lines] at h

/-- The lines of a text tell its kind and its fields. -/
theorem lines_inj {t u : SignedText} (ht : t.lines ≠ []) (h : t.lines = u.lines) :
    t.asCanonical = u.asCanonical := by
  cases t with
  | records => rw [← records_inj h]
  | deviceRead => rw [← deviceRead_inj h]
  | canonical => exact canonical_inj h
  | envelope operation principal timestamp nonce payloadHash =>
    have hc : (canonical 1 operation principal timestamp nonce payloadHash).lines = u.lines := h
    exact canonical_inj hc
  | transcript => exact absurd rfl ht

theorem lines_eq_nil {t : SignedText} (h : t.lines = []) :
    ∃ sessionId identityId ya yb tag, t = transcript sessionId identityId ya yb tag := by
  cases t with
  | transcript => exact ⟨_, _, _, _, _, rfl⟩
  | records | envelope | deviceRead | canonical => cases h

/-- The first line of a text that is not a transcript. -/
theorem exists_header {t : SignedText} (h : t.lines ≠ []) :
    ∃ version operation ls, t.lines = header version operation :: ls := by
  cases t with
  | transcript => exact absurd rfl h
  | records | envelope | deviceRead | canonical => exact ⟨_, _, _, rfl⟩

theorem transcript_first (encode : Bytes → String) (sessionId identityId : String) (ya yb : Bytes)
    (tag : PairingBox) : ∃ rest,
    ((transcript sessionId identityId ya yb tag).text encode).toList =
      pairingTranscriptHeader.toList ++ '\n' :: rest := by
  have hnl : "\n".toList = ['\n'] := rfl
  rw [text_transcript]
  refine ⟨"session_id=".toList ++ sessionId.toList ++
    Lines.started '\n' ((transcriptTail encode identityId ya yb tag).map String.toList), ?_⟩
  simp only [String.toList_append, hnl, List.append_assoc, List.cons_append, List.nil_append]

theorem text_ne_transcript {encode : Bytes → String} {t : SignedText} (hl : t.lines ≠ [])
    (ht : t.FieldsNewlineless) (sessionId identityId : String) (ya yb : Bytes) (tag : PairingBox) :
    t.text encode ≠ (transcript sessionId identityId ya yb tag).text encode := by
  intro h
  obtain ⟨version, operation, ls, hls⟩ := exists_header hl
  obtain ⟨rest, hrest⟩ := transcript_first encode sessionId identityId ya yb tag
  have hhead : '\n' ∉ (header version operation).toList :=
    lines_newlineless ht _ (by simp [hls])
  have htr : '\n' ∉ pairingTranscriptHeader.toList := by simp [pairingTranscriptHeader]
  have hcons := congrArg String.toList h
  rw [text_lines encode hl, hls, hrest] at hcons
  have hfirst := (Lines.cons_inj hhead htr hcons).1
  exact header_ne_transcript version operation (String.toList_inj.1 hfirst)

/-- A box is what is on the wire: its IV has 12 bytes. -/
theorem wire_inj {encode : Bytes → String} (he : Function.Injective encode) {a b : PairingBox}
    (h : a.wire encode = b.wire encode) : a = b := by
  obtain ⟨iv, ciphertext, hl⟩ := a
  obtain ⟨iv', ciphertext', hl'⟩ := b
  have hbytes : iv ++ ciphertext = iv' ++ ciphertext' := he h
  obtain ⟨hiv, hct⟩ := List.append_inj hbytes (by rw [hl, hl'])
  subst hiv hct
  rfl

theorem transcript_inj {encode : Bytes → String} (he : Function.Injective encode)
    (hn : ∀ b, Newlineless (encode b)) {s s' i i' : String} {ya ya' yb yb' : Bytes}
    {tag tag' : PairingBox} (hi : Newlineless i) (hi' : Newlineless i')
    (h : (transcript s i ya yb tag).text encode = (transcript s' i' ya' yb' tag').text encode) :
    transcript s i ya yb tag = transcript s' i' ya' yb' tag' := by
  have hl := congrArg String.toList h
  rw [text_transcript, text_transcript] at hl
  obtain ⟨hs, htail⟩ := Lines.started_inj (transcriptTail_newlineless hn hi ya yb tag)
    (transcriptTail_newlineless hn hi' ya' yb' tag') rfl hl
  have hlines := List.map_injective_iff.2 (fun _ _ => String.toList_inj.1) htail
  simp only [transcriptTail, List.cons.injEq, and_true, true_and] at hlines
  obtain ⟨hid, hya, hyb, htag⟩ := hlines
  rw [line_inj (String.toList_inj.1 hs), line_inj hid, he (line_inj hya), he (line_inj hyb),
    wire_inj he (line_inj htag)]

theorem asCanonical_text (encode : Bytes → String) (t : SignedText) :
    t.asCanonical.text encode = t.text encode := by
  cases t with
  | records | deviceRead | canonical | transcript => rfl
  | envelope => rfl

/-! ## Separation -/

theorem newlineless_base64url (b : Bytes) : Newlineless (base64url b) := by
  intro h
  exact absurd (mem_base64url h) (by decide)

/-- **Signed bytes have one kind and one value of their fields**; the envelopes are the canonical
texts of version 1. -/
theorem text_inj {encode : Bytes → String} (he : Function.Injective encode)
    (hn : ∀ b, Newlineless (encode b)) {t u : SignedText} (ht : t.FieldsNewlineless)
    (hu : u.FieldsNewlineless) :
    t.bytes encode = u.bytes encode ↔ t.asCanonical = u.asCanonical := by
  constructor
  · intro hb
    have h : t.text encode = u.text encode := utf8_inj hb
    by_cases hlt : t.lines = []
    · obtain ⟨s, i, ya, yb, tag, rfl⟩ := lines_eq_nil hlt
      by_cases hlu : u.lines = []
      · obtain ⟨s', i', ya', yb', tag', rfl⟩ := lines_eq_nil hlu
        rw [transcript_inj he hn ht hu h]
      · exact absurd h.symm (text_ne_transcript hlu hu s i ya yb tag)
    · by_cases hlu : u.lines = []
      · obtain ⟨s, i, ya, yb, tag, rfl⟩ := lines_eq_nil hlu
        exact absurd h (text_ne_transcript hlt ht s i ya yb tag)
      · have hterm := congrArg String.toList h
        rw [text_lines encode hlt, text_lines encode hlu] at hterm
        have hmap := Lines.terminated_inj (lines_newlineless ht) (lines_newlineless hu) hterm
        have hlines := List.map_injective_iff.2 (fun _ _ => String.toList_inj.1) hmap
        exact lines_inj hlt hlines
  · intro h
    have htext := congrArg (bytes encode) h
    rw [bytes, bytes, asCanonical_text, asCanonical_text] at htext
    exact htext

/-- A transcript whose session identifier imitates the lines of a records text. -/
theorem text_inj_scanned :
    (transcript "s\nprincipal=i\nvault_id=v" "i" [1] [2] ⟨List.replicate 12 0, [3], rfl⟩).bytes
        base64url = (records "i" "v" 1 "h").bytes base64url ↔
      (transcript "s\nprincipal=i\nvault_id=v" "i" [1] [2]
        ⟨List.replicate 12 0, [3], rfl⟩).asCanonical = (records "i" "v" 1 "h").asCanonical :=
  text_inj (fun _ _ => base64url_inj) newlineless_base64url
      (by simp [FieldsNewlineless, Newlineless])
    (by simp [FieldsNewlineless, Newlineless])

end SignedText

/-! ## What the code signs -/

section
variable {S : SigningPackage}

theorem newlineless_hexEncode (b : Bytes) : Newlineless (hexEncode b) := by
  have hdigit : ∀ n : Nat, hexDigits.getD n '0' ≠ '\n' := by
    intro n
    by_cases hn : n < hexDigits.length
    · rw [List.getD_eq_getElem _ _ hn]
      intro h
      have hm : '\n' ∈ hexDigits := h ▸ List.getElem_mem hn
      exact absurd hm (by decide)
    · rw [List.getD_eq_default _ _ (by omega)]
      decide
  have hc : ∀ b : Bytes, '\n' ∉ hexChars b := by
    intro b
    induction b with
    | nil => simp [hexChars]
    | cons x b ih =>
      simp only [hexChars, List.mem_cons, not_or]
      exact ⟨(hdigit _).symm, (hdigit _).symm, ih⟩
  intro h
  exact hc b (by simpa [hexEncode] using h)

theorem sha256Hex_newlineless {payload : Json} {hash : String}
    (h : sha256Hex S payload = .ok hash) :
    Newlineless hash := by
  obtain ⟨jcs, -, h⟩ := ok_of_bind h
  cases h
  exact newlineless_hexEncode _

theorem payloadSha256Hex_newlineless {payload : Json} {hash : String}
    (h : payloadSha256Hex S payload = .ok hash) : Newlineless hash :=
  sha256Hex_newlineless (ok_of_mapError h)

/-- An envelope is signed as its own text, whose nonce and hash have no newline. -/
theorem envelope_signs (hn : ∀ b, Newlineless (S.base64urlEncode b)) {seed : Random 32}
    {principal operation : String} {payload : Json} {now : Option Int} {clock : Int}
    {random : Random 16} {json : Json}
    (h : envelope S seed principal operation payload now clock random = .ok json) :
    ∃ hash signature, Newlineless hash ∧ Newlineless (nonce S random) ∧
      S.ed25519Sign seed.1 ((SignedText.envelope operation principal (nowMs now clock)
        (nonce S random) hash).text S.base64urlEncode) = .ok signature ∧
      json.field? "signature" = some (signatureJson S signature) := by
  obtain ⟨hash, hhash, h⟩ := ok_of_bind h
  obtain ⟨signature, hs, h⟩ := ok_of_bind h
  cases h
  exact ⟨hash, signature, payloadSha256Hex_newlineless hhash, hn _, ok_of_mapError hs, rfl⟩

/-- A vault read is signed as its own text. -/
theorem deviceRead_signs (hn : ∀ b, Newlineless (S.base64urlEncode b)) {deviceSeed : Bytes}
    {identityId vaultId operation : String} {payload : Option Json} {now : Option Int} {clock : Int}
    {random : Random 16} {authorization : String}
    (h : deviceReadAuthorization S deviceSeed identityId vaultId operation payload now
    clock random = .ok authorization) :
    ∃ hash signature, Newlineless hash ∧ Newlineless (nonce S random) ∧
      S.ed25519Sign deviceSeed ((SignedText.deviceRead operation identityId vaultId
        (nowMs now clock) (nonce S random) hash).text S.base64urlEncode) = .ok signature := by
  unfold deviceReadAuthorization at h
  split at h
  · cases h
  · obtain ⟨hash, hhash, h⟩ := ok_of_bind h
    obtain ⟨signature, hs, -⟩ := ok_of_bind h
    exact ⟨hash, signature, payloadSha256Hex_newlineless hhash, hn _, ok_of_mapError hs⟩

theorem recordSignature_signs {seed : Random 32} {identityId vaultId : String} {generation : Nat}
    {generationHash : String} {json : Json}
    (h : recordSignature S seed identityId vaultId generation generationHash = .ok json) :
    ∃ signature, S.ed25519Sign seed.1 ((SignedText.records identityId vaultId generation
      generationHash).text S.base64urlEncode) = .ok signature ∧
      json = signatureJson S signature := by
  obtain ⟨signature, hs, h⟩ := ok_of_bind h
  cases h
  exact ⟨signature, ok_of_mapError hs, rfl⟩

/-- The canonical text of an operation has a hash without a newline. -/
theorem canonicalSignedUtf8_text {version : Int} {operation principal : String} {timestamp : Int}
    {nonce : String} {payload : Json} {text : String}
    (h : Discovery.canonicalSignedUtf8 S version operation principal timestamp nonce payload =
      .ok text) (encode : Bytes → String) :
    ∃ hash, Newlineless hash ∧
      text = (SignedText.canonical version operation principal timestamp nonce
          hash).text encode := by
  obtain ⟨hash, hhash, h⟩ := ok_of_bind h
  cases h
  exact ⟨hash, sha256Hex_newlineless hhash, rfl⟩

end

end Signing
