import Mathlib.Data.Bool.AllAny
import SdkPubkey.Discovery.Select
import SdkPubkey.Lib.Base64
import SdkPubkey.Lib.Search
import SdkPubkey.OpenPgp.KeyId

/-!
# ASCII armor

`lib/src/engines/openpgp_rfc9980.dart`: `decodePgpArmor` takes the payload out of an armored text,
and `messageLooksPqc` looks for the algorithms of RFC 9980 in it. `Armor.text` is a payload armored:
header lines, an empty line, base 64 in lines of a width, perhaps a checksum, with text before and
after. The patterns of the decoder are ASCII, so that its positions may be counted in characters.

* `decodePgpArmor_iff`: when the decoder returns the payload. It does not find the empty line after
  header lines if the lines end with CRLF, and it takes the end marker in a header line for the end.
-/

namespace OpenPgp

open Lib Lib.Outcome

def beginMarker : List Char := "-----BEGIN PGP ".toList
def dashes : List Char := "-----".toList
def endMarker : List Char := "-----END PGP ".toList

/-! ## The code -/

namespace Dart

def rfc9980MlKem768X25519Id : UInt8 := 35

def isRfc9980Id (id : UInt8) : Bool := 30 ≤ id && id ≤ 36

def acceptsRfc9980 (version algorithmId : UInt8) : Bool :=
  if !isRfc9980Id algorithmId then false
  else if algorithmId = rfc9980MlKem768X25519Id then version == 4 || version == 6
  else version == 6

/-- The length of a packet and where its body starts. -/
def newFormatLength (bytes : List UInt8) (offset : Nat) : Outcome (Nat × Nat) :=
  if bytes.length ≤ offset then .none
  else do
    let first ← index bytes offset
    if first < 192 then .ok (first.toNat, offset + 1)
    else if first < 224 then
      if bytes.length ≤ offset + 1 then .none
      else do
        let second ← index bytes (offset + 1)
        .ok ((first.toNat - 192) <<< 8 + second.toNat + 192, offset + 2)
    else if first = 255 then
      if bytes.length ≤ offset + 4 then .none
      else do
        let length ← uint32At bytes (offset + 1)
        .ok (length, offset + 5)
    else .none

def oldFormatLength (bytes : List UInt8) (header : Nat) (lenType : UInt8) : Outcome (Nat × Nat) :=
  match lenType with
  | 0 =>
    if bytes.length ≤ header then .none
    else do
      let length ← index bytes header
      .ok (length.toNat, header + 1)
  | 1 =>
    if bytes.length ≤ header + 1 then .none
    else do
      let a ← index bytes header
      let b ← index bytes (header + 1)
      .ok (a.toNat <<< 8 ||| b.toNat, header + 2)
  | 2 =>
    if bytes.length ≤ header + 3 then .none
    else do
      let length ← uint32At bytes header
      .ok (length, header + 4)
  | _ => .none

/-- The packet at `offset`, and where the next one is. -/
def readPacket (bytes : List UInt8) (offset : Nat) : Outcome (Packet × Nat) :=
  if bytes.length ≤ offset then .none
  else do
    let first ← index bytes offset
    if first &&& 0x80 = 0 then .none
    else do
      let (tag, length, start) ←
        if first &&& 0x40 ≠ 0 then do
          let (length, start) ← newFormatLength bytes (offset + 1)
          .ok (first &&& 0x3f, length, start)
        else do
          let (length, start) ← oldFormatLength bytes (offset + 1) (first &&& 0x03)
          .ok (first >>> 2 &&& 0x0f, length, start)
      if bytes.length < start + length then .none
      else do
        let body ← slice bytes start (start + length)
        .ok (⟨tag, body⟩, start + length)

/-- The version and the algorithm that a packet shows. -/
def packetAlgorithm (p : Packet) : Outcome (Option (UInt8 × UInt8)) :=
  if p.body = [] then .ok .none
  else do
    let version ← index p.body 0
    if p.tag = 1 then
      if version = 3 ∧ 10 ≤ p.body.length then do
        let algorithm ← index p.body 9
        .ok (some (4, algorithm))
      else if version = 6 ∧ 3 ≤ p.body.length then do
        let fpLen ← index p.body 1
        let algoAt := 2 + fpLen.toNat
        if algoAt < p.body.length then do
          let algorithm ← index p.body algoAt
          .ok (some (6, algorithm))
        else .ok .none
      else .ok .none
    else if p.tag = 2 ∧ 4 ≤ p.body.length then
      if version = 4 ∨ version = 6 then do
        let algorithm ← index p.body 2
        .ok (some (version, algorithm))
      else .ok .none
    else if (p.tag = 5 ∨ p.tag = 6 ∨ p.tag = 7 ∨ p.tag = 14) ∧ 6 ≤ p.body.length then
      if version = 4 ∨ version = 6 then do
        let algorithm ← index p.body 5
        .ok (some (version, algorithm))
      else .ok .none
    else .ok .none

def addIfAccepted (ids : List UInt8) : Option (UInt8 × UInt8) → List UInt8
  | some (version, id) => if acceptsRfc9980 version id then ids.insert id else ids
  | .none => ids

/-- A turn of the loop, from the offset and the set of identifiers. -/
def acceptedTurn (bytes : List UInt8) (s : Nat × List UInt8) :
    Outcome ((Nat × List UInt8) ⊕ List UInt8) :=
  let (offset, ids) := s
  if offset < bytes.length then
    match readPacket bytes offset with
    | .ok (packet, next) => do
      let algorithm ← packetAlgorithm packet
      .ok (.inl (next, addIfAccepted ids algorithm))
    | .none => .ok (.inr ids)
    | .fault => .fault
    | .spin => .spin
  else .ok (.inr ids)

def acceptedRfc9980Ids (bytes : List UInt8) : Outcome (List UInt8) :=
  loop (acceptedTurn bytes) (bytes.length + 1) (0, [])

def looksLikeRfc9980 (bytes : List UInt8) : Outcome Bool := do
  let ids ← acceptedRfc9980Ids bytes
  .ok (ids ≠ [])

def indexOf (text pattern : List Char) (start : Nat) : Option Nat :=
  (find pattern (text.drop start)).map (· + start)

/-- The body behind the first empty line. -/
def afterBlank (body : List Char) : List Char :=
  match indexOf body ['\n', '\n'] 0 with
  | some blank => body.drop (blank + 2)
  | .none => body

def beforeCrc (body : List Char) : List Char :=
  match indexOf body ['\n', '='] 0 with
  | some crc => body.take crc
  | .none => body

/-- `replaceAll` of white space with nothing. -/
def compacted (body : List Char) : List Char := body.filter fun c => !Discovery.Ts.isSpace c

def decodeBody (body : List Char) : Outcome (List UInt8) :=
  let compact := compacted (beforeCrc (afterBlank body))
  if compact = [] then .none else ofOption (base64Decode compact)

def decodePgpArmor (source : String) : Outcome (List UInt8) := do
  let source := source.toList
  let start ← ofOption (indexOf source beginMarker 0)
  let headerEnd ← ofOption (indexOf source dashes (start + 5))
  let stop ← ofOption (indexOf source endMarker headerEnd)
  let body ← slice source (headerEnd + 5) stop
  decodeBody body

/-- The loop over the samples. -/
def samplesLookPqc : List (Option String) → Outcome Bool
  | [] => .ok false
  | .none :: samples => samplesLookPqc samples
  | some sample :: samples =>
    if sample = "" then samplesLookPqc samples
    else
      match decodePgpArmor sample with
      | .ok decoded => do
        if ← looksLikeRfc9980 decoded then .ok true else samplesLookPqc samples
      | .none => samplesLookPqc samples
      | .fault => .fault
      | .spin => .spin

def messageLooksPqc (text html : Option String) (binary : Option (List UInt8)) : Outcome Bool := do
  let binaryLooks ← match binary with
    | some bytes => if bytes = [] then .ok false else looksLikeRfc9980 bytes
    | .none => .ok false
  if binaryLooks then .ok true else samplesLookPqc [text, html]

end Dart

/-! ## Armored texts -/

inductive LineEnding where
  | lf
  | crlf
deriving DecidableEq

/-- What a line has before its newline. -/
def LineEnding.cr : LineEnding → List Char
  | lf => []
  | crlf => ['\r']

structure Header where
  key : List Char
  value : List Char
  key_chars : ¬ endMarker <:+: key ∧ '\n' ∉ key ∧ '\r' ∉ key
  value_chars : '\n' ∉ value ∧ '\r' ∉ value

def Header.line (h : Header) : List Char := h.key ++ ':' :: ' ' :: h.value

/-- The lines of a text, in pieces of `width`. -/
def wrap (width : Nat) : Nat → List Char → List (List Char)
  | 0, _ => []
  | _ + 1, [] => []
  | n + 1, c :: cs => (c :: cs).take width :: wrap width n ((c :: cs).drop width)

structure Armor where
  before : List Char
  label : List Char
  headers : List Header
  ending : LineEnding
  width : Nat
  crc : Option { bytes : List UInt8 // bytes.length = 3 }
  after : List Char
  before_chars : ¬ beginMarker <:+: before
  label_chars : '-' ∉ label
  width_pos : 0 < width
  width_dvd : 4 ∣ width

namespace Armor

variable (a : Armor) (payload : List UInt8)

def dataLines : List (List Char) := wrap a.width (base64 payload).length (base64 payload)

def crcLines : List (List Char) := a.crc.toList.map fun bytes => '=' :: base64 bytes.1

/-- The lines behind the one that begins the block. -/
def lines : List (List Char) :=
  a.headers.map Header.line ++ [] :: (a.dataLines payload ++ a.crcLines)

/-- What is between the dashes that begin the block and the end marker. -/
def body : List Char := Lines.terminated '\n' (([] :: a.lines payload).map (· ++ a.ending.cr))

def text : String :=
  String.ofList (a.before ++ (beginMarker ++ (a.label ++ (dashes ++ (a.body payload ++
    (endMarker ++ (a.label ++ (dashes ++ a.after))))))))

end Armor

/-! ## Reading packets -/

section
variable {bytes : List UInt8} {offset : Nat}

theorem uint32At_ok (h : offset + 3 < bytes.length) : ∃ n, Dart.uint32At bytes offset = .ok n := by
  unfold Dart.uint32At
  rw [index_eq (by omega), Outcome.ok_bind, index_eq (by omega), Outcome.ok_bind,
    index_eq (by omega), Outcome.ok_bind, index_eq (by omega), Outcome.ok_bind]
  exact ⟨_, rfl⟩

theorem newFormatLength_cases (bytes : List UInt8) (offset : Nat) :
    Dart.newFormatLength bytes offset = .none ∨
      ∃ length start, Dart.newFormatLength bytes offset = .ok (length, start) ∧ offset < start := by
  unfold Dart.newFormatLength
  by_cases h0 : bytes.length ≤ offset
  · rw [if_pos h0]
    exact .inl rfl
  rw [if_neg h0, index_eq (by omega), Outcome.ok_bind]
  generalize bytes[offset] = first
  by_cases h192 : first < 192
  · rw [if_pos h192]
    exact .inr ⟨_, _, rfl, by omega⟩
  rw [if_neg h192]
  by_cases h224 : first < 224
  · rw [if_pos h224]
    by_cases h1 : bytes.length ≤ offset + 1
    · rw [if_pos h1]
      exact .inl rfl
    · rw [if_neg h1, index_eq (by omega)]
      exact .inr ⟨_, _, rfl, by omega⟩
  rw [if_neg h224]
  by_cases h255 : first = 255
  · rw [if_pos h255]
    by_cases h4 : bytes.length ≤ offset + 4
    · rw [if_pos h4]
      exact .inl rfl
    · obtain ⟨n, hn⟩ := uint32At_ok (show offset + 1 + 3 < bytes.length by omega)
      rw [if_neg h4, hn]
      exact .inr ⟨_, _, rfl, by omega⟩
  · rw [if_neg h255]
    exact .inl rfl

theorem oldFormatLength_cases (bytes : List UInt8) (header : Nat) (lenType : UInt8) :
    Dart.oldFormatLength bytes header lenType = .none ∨
      ∃ length start, Dart.oldFormatLength bytes header lenType = .ok (length, start) ∧
          header < start := by
  unfold Dart.oldFormatLength
  split
  · by_cases h : bytes.length ≤ header
    · rw [if_pos h]
      exact .inl rfl
    · rw [if_neg h, index_eq (by omega)]
      exact .inr ⟨_, _, rfl, by omega⟩
  · by_cases h : bytes.length ≤ header + 1
    · rw [if_pos h]
      exact .inl rfl
    · rw [if_neg h, index_eq (by omega), Outcome.ok_bind, index_eq (by omega)]
      exact .inr ⟨_, _, rfl, by omega⟩
  · by_cases h : bytes.length ≤ header + 3
    · rw [if_pos h]
      exact .inl rfl
    · obtain ⟨n, hn⟩ := uint32At_ok (show header + 3 < bytes.length by omega)
      rw [if_neg h, hn]
      exact .inr ⟨_, _, rfl, by omega⟩
  · exact .inl rfl

/-- A packet is not read out of range, and the next one is behind it. -/
theorem readPacket_cases (bytes : List UInt8) (offset : Nat) :
    Dart.readPacket bytes offset = .none ∨
      ∃ p next, Dart.readPacket bytes offset = .ok (p, next) ∧ offset < next := by
  unfold Dart.readPacket
  by_cases h0 : bytes.length ≤ offset
  · rw [if_pos h0]
    exact .inl rfl
  rw [if_neg h0, index_eq (by omega), Outcome.ok_bind]
  generalize bytes[offset] = first
  by_cases h80 : first &&& 0x80 = 0
  · rw [if_pos h80]
    exact .inl rfl
  rw [if_neg h80]
  -- once the length is known the body is read in both formats alike
  have hbody : ∀ tag length start, offset < start →
      (if bytes.length < start + length then .none
        else do
          let body ← slice bytes start (start + length)
          .ok (⟨tag, body⟩, start + length) : Outcome (Packet × Nat)) = .none ∨
      ∃ p next, (if bytes.length < start + length then .none
        else do
          let body ← slice bytes start (start + length)
          .ok (⟨tag, body⟩, start + length) : Outcome (Packet × Nat)) = .ok (p, next) ∧
              offset < next := by
    intro tag length start hstart
    by_cases hfit : bytes.length < start + length
    · rw [if_pos hfit]
      exact .inl rfl
    · rw [if_neg hfit, slice_eq (by omega), Outcome.ok_bind]
      exact .inr ⟨_, _, rfl, by omega⟩
  by_cases h40 : first &&& 0x40 ≠ 0
  · -- the new format
    rw [if_pos h40]
    rcases newFormatLength_cases bytes (offset + 1) with hn | ⟨length, start, hn, hlt⟩
    · rw [hn]
      exact .inl rfl
    · rw [hn]
      exact hbody _ length start (by omega)
  · -- the old format
    rw [if_neg h40]
    rcases oldFormatLength_cases bytes (offset + 1) (first &&& 0x03) with
        hn | ⟨length, start, hn, hlt⟩
    · rw [hn]
      exact .inl rfl
    · rw [hn]
      exact hbody _ length start (by omega)

end

/-- The octets that a packet shows its algorithm in are there. -/
theorem packetAlgorithm_ok (p : Packet) : ∃ r, Dart.packetAlgorithm p = .ok r := by
  unfold Dart.packetAlgorithm
  by_cases hnil : p.body = []
  · rw [if_pos hnil]
    exact ⟨_, rfl⟩
  have hpos : 0 < p.body.length := List.length_pos_iff.2 hnil
  have hindex : ∀ i, i < p.body.length → ∃ b, index p.body i = .ok b := fun i hi => ⟨_, index_eq hi⟩
  rw [if_neg hnil, index_eq hpos, Outcome.ok_bind]
  generalize p.body[0] = version
  split
  · split
    · rename_i h3
      obtain ⟨b, hb⟩ := hindex 9 (by omega)
      rw [hb]
      exact ⟨_, rfl⟩
    · split
      · rename_i h6
        obtain ⟨b, hb⟩ := hindex 1 (by omega)
        rw [hb, Outcome.ok_bind]
        dsimp only
        split
        · rename_i hlt
          obtain ⟨c, hc⟩ := hindex _ hlt
          rw [hc]
          exact ⟨_, rfl⟩
        · exact ⟨_, rfl⟩
      · exact ⟨_, rfl⟩
  · split
    · rename_i h2
      obtain ⟨b, hb⟩ := hindex 2 (by omega)
      rw [hb]
      split <;> exact ⟨_, rfl⟩
    · split
      · rename_i h5
        obtain ⟨b, hb⟩ := hindex 5 (by omega)
        rw [hb]
        split <;> exact ⟨_, rfl⟩
      · exact ⟨_, rfl⟩

theorem acceptedTurn_meets (bytes : List UInt8) (s : Nat × List UInt8) :
    TurnMeets (fun _ => True) (fun s => bytes.length - s.1) (fun _ r => ∃ ids, r = .ok ids) s
      (Dart.acceptedTurn bytes s) := by
  obtain ⟨offset, ids⟩ := s
  unfold Dart.acceptedTurn
  dsimp only
  by_cases hlt : offset < bytes.length
  · rw [if_pos hlt]
    rcases readPacket_cases bytes offset with hr | ⟨p, next, hr, hnext⟩
    · rw [hr]
      exact ⟨ids, rfl⟩
    · obtain ⟨algorithm, ha⟩ := packetAlgorithm_ok p
      rw [hr]
      dsimp only
      rw [ha, Outcome.ok_bind]
      exact ⟨trivial, by dsimp only; omega, fun r h => h⟩
  · rw [if_neg hlt]
    exact ⟨ids, rfl⟩

/-- The probe ends on every byte string, without a fault. -/
theorem looksLikeRfc9980_ok (bytes : List UInt8) : ∃ b, Dart.looksLikeRfc9980 bytes = .ok b := by
  obtain ⟨ids, hids⟩ := loop_rule (fun s _ => acceptedTurn_meets bytes s) (bytes.length + 1) (0, [])
    trivial (by dsimp only; omega)
  unfold Dart.looksLikeRfc9980 Dart.acceptedRfc9980Ids
  rw [hids, Outcome.ok_bind]
  exact ⟨_, rfl⟩

/-! ## Finding the body -/

theorem newline_not_mem_markers : '\n' ∉ beginMarker ∧ '\n' ∉ endMarker ∧
    '\r' ∉ endMarker := by decide

theorem borderless_beginMarker : Borderless beginMarker := by
  unfold Borderless
  decide

theorem borderless_endMarker : Borderless endMarker := by
  unfold Borderless
  decide

/-- What lies between the first header line and the first end marker behind it is decoded. -/
theorem decodePgpArmor_eq {before label body : List Char} (hbefore : ¬ beginMarker <:+: before)
    (hlabel : '-' ∉ label) (hbody : ¬ endMarker <:+: dashes ++ body) (rest : List Char) :
    Dart.decodePgpArmor (String.ofList (before ++ (beginMarker ++ (label ++ (dashes ++ (body ++
      (endMarker ++ rest))))))) = Dart.decodeBody body := by
  have hbegin : beginMarker = dashes ++ "BEGIN PGP ".toList := by decide
  have hword : '-' ∉ "BEGIN PGP ".toList := by decide
  have h5 : dashes.length = 5 := by decide
  generalize htail : dashes ++ (body ++ (endMarker ++ rest)) = tail
  generalize hsource : before ++ (beginMarker ++ (label ++ tail)) = source
  have hstart : Dart.indexOf source beginMarker 0 = some before.length := by
    rw [Dart.indexOf, List.drop_zero, ← hsource, find_borderless borderless_beginMarker hbefore]
    rfl
  have hdrop : source.drop (before.length + 5) = ("BEGIN PGP ".toList ++ label) ++ tail := by
    rw [← hsource, hbegin, ← List.drop_drop, List.drop_left, ← h5, List.append_assoc,
      List.drop_left, List.append_assoc]
  -- the label is what stands between the begin marker and its dashes
  generalize hheader : ("BEGIN PGP ".toList ++ label).length + (before.length + 5) = headerEnd
  have hheaderEnd : Dart.indexOf source dashes (before.length + 5) = some headerEnd := by
    have hnot : '-' ∉ "BEGIN PGP ".toList ++ label := fun h =>
      (List.mem_append.1 h).elim hword hlabel
    have hfind : find dashes (("BEGIN PGP ".toList ++ label) ++ tail) =
        some ("BEGIN PGP ".toList ++ label).length := by
      have hskip := find_of_not_mem (p := "----".toList) hnot tail
      rw [← htail] at hskip ⊢
      rw [show dashes = '-' :: "----".toList by decide] at hskip ⊢
      rw [hskip, find_prefix, Option.map_some, Nat.zero_add]
    rw [Dart.indexOf, hdrop, hfind, Option.map_some, hheader]
  have hrest : source.drop headerEnd = (dashes ++ body) ++ (endMarker ++ rest) := by
    rw [← hheader, Nat.add_comm, ← List.drop_drop, hdrop, List.drop_left, ← htail,
        List.append_assoc]
  -- the end marker is looked for from the label's end, so the dashes are before it
  have hstop : Dart.indexOf source endMarker headerEnd =
      some ((dashes ++ body).length + headerEnd) := by
    rw [Dart.indexOf, hrest, find_borderless borderless_endMarker hbody, Option.map_some]
  have hlen : headerEnd + (dashes ++ body).length ≤ source.length := by
    have hl := congrArg List.length hrest
    have h13 : endMarker.length = 13 := by decide
    rw [List.length_drop, List.length_append, @List.length_append _ endMarker, h13] at hl
    omega
  have hslice : slice source (headerEnd + 5) ((dashes ++ body).length + headerEnd) = .ok body := by
    have hl : (dashes ++ body).length = 5 + body.length := by rw [List.length_append, h5]
    have hrange : getRange source (headerEnd + 5) ((dashes ++ body).length + headerEnd) =
        some body := by
      rw [getRange, if_pos ⟨by omega, by omega⟩, List.drop_take,
        show source.drop (headerEnd + 5) = body ++ (endMarker ++ rest) by
          rw [← List.drop_drop, hrest, ← h5, List.append_assoc, List.drop_left],
        List.take_left' (by omega)]
    rw [slice, hrange]
  unfold Dart.decodePgpArmor
  dsimp only
  rw [String.toList_ofList, hstart, ofOption_some, Outcome.ok_bind, hheaderEnd, ofOption_some,
    Outcome.ok_bind, hstop, ofOption_some, Outcome.ok_bind, hslice, Outcome.ok_bind]

/-! ## Decoding the body -/

open Dart (compacted)

theorem compacted_append (a b : List Char) : compacted (a ++ b) = compacted a ++ compacted b :=
  List.filter_append a b

theorem compacted_newline : compacted ['\n'] = [] := by decide

theorem compacted_terminated (ls : List (List Char)) :
    compacted (Lines.terminated '\n' ls) = compacted ls.flatten := by
  induction ls with
  | nil => rfl
  | cons l ls ih =>
    rw [Lines.terminated, List.flatten_cons, compacted_append, compacted_append,
      ← List.singleton_append, compacted_append, compacted_newline, List.nil_append, ih]

/-- The lines before a checksum, or all of them, are kept. -/
theorem beforeCrc_terminated {l : List Char} {ls : List (List Char)} (h : ∀ m ∈ l :: ls, '\n' ∉ m)
    (hc : ∀ m ∈ ls, (m ++ ['\n']).head? ≠ some '=') {tail : List Char}
    (htail : tail = [] ∨ tail.head? = some '=') :
    compacted (Dart.beforeCrc (Lines.terminated '\n' (l :: ls) ++ tail)) =
      compacted (l :: ls).flatten := by
  have hfind := find_terminated h hc tail
  unfold Dart.beforeCrc Dart.indexOf
  rw [List.drop_zero, hfind]
  rcases htail with rfl | htail
  · have hnone : find ['\n', '='] [] = .none := by decide
    rw [List.head?_nil, if_neg (by simp), hnone]
    simp only [Option.map_none]
    rw [List.append_nil, compacted_terminated]
  · rw [if_pos htail]
    simp only [Option.map_some, Nat.add_zero]
    have hlast : (Lines.terminated '\n' (l :: ls)).getLast? = some '\n' :=
      Lines.getLast?_terminated (by simp)
    obtain ⟨front, hfront⟩ := List.getLast?_eq_some_iff.1 hlast
    have hcompact := compacted_terminated (l :: ls)
    rw [hfront, compacted_append, compacted_newline, List.append_nil] at hcompact
    rw [hfront, List.length_append, List.length_singleton, Nat.add_sub_cancel, List.append_assoc,
      List.take_left, ← hcompact]

/-- A body whose first line behind the header line has a colon is not decoded, where no empty line
is found. -/
theorem decodeBody_eq_none {cr line rest : List Char} (hcr : cr = [] ∨ cr = ['\r'])
    (hline : '\n' ∉ line)
    (hcolon : ':' ∈ line) (hblank : find ['\n', '\n'] (cr ++ '\n' :: (line ++ rest)) = .none) :
    Dart.decodeBody (cr ++ '\n' :: (line ++ rest)) = .none := by
  have hafter : Dart.afterBlank (cr ++ '\n' :: (line ++ rest)) = cr ++ '\n' :: (line ++ rest) := by
    unfold Dart.afterBlank Dart.indexOf
    rw [List.drop_zero, hblank]
    rfl
  have hcrline : '\n' ∉ cr := by rcases hcr with rfl | rfl <;> decide
  have hspace : compacted cr = [] := by rcases hcr with rfl | rfl <;> decide
  -- a text with a colon is not base 64
  have hnone : ∀ cs, ':' ∈ cs →
      (if compacted cs = [] then .none else ofOption (base64Decode (compacted cs))) =
        (.none : Outcome (List UInt8)) := by
    intro cs hmem
    have hcompact : ':' ∈ compacted cs := List.mem_filter.2 ⟨hmem, by decide⟩
    rw [if_neg (List.ne_nil_of_mem hcompact),
      base64Decode_eq_none hcompact (by decide) (by decide)]
    rfl
  unfold Dart.decodeBody
  dsimp only
  rw [hafter]
  unfold Dart.beforeCrc Dart.indexOf
  rw [List.drop_zero, find_of_not_mem hcrline, find_delimiter]
  by_cases hhead : (line ++ rest).head? = some '='
  · rw [if_pos hhead]
    simp only [Option.map_some, Nat.zero_add, Nat.add_zero]
    rw [List.take_left, if_pos hspace]
  · rw [if_neg hhead, find_of_not_mem hline]
    cases find ['\n', '='] rest with
    | none =>
      simp only [Option.map_none]
      exact hnone _ (by simp [hcolon])
    | some i =>
      simp only [Option.map_some, Nat.add_zero]
      refine hnone _ ?_
      have htake : i + line.length + 1 + cr.length = (cr ++ '\n' :: line).length + i := by
        rw [List.length_append, List.length_cons]
        omega
      rw [htake, show cr ++ '\n' :: (line ++ rest) = (cr ++ '\n' :: line) ++ rest by simp,
        List.take_length_add_append]
      simp [hcolon]

/-! ## Lines -/

theorem wrap_flatten {width n : Nat} {cs : List Char} (hw : 0 < width) (hn : cs.length ≤ n) :
    (wrap width n cs).flatten = cs := by
  induction n generalizing cs with
  | zero =>
    obtain rfl := List.length_eq_zero_iff.1 (Nat.le_zero.1 hn)
    rfl
  | succ n ih =>
    cases cs with
    | nil => rfl
    | cons c cs =>
      rw [List.length_cons] at hn
      rw [wrap, List.flatten_cons, ih, List.take_append_drop]
      rw [List.length_drop, List.length_cons]
      omega

/-- A piece begins at a multiple of the width. -/
theorem head?_of_mem_wrap {width n : Nat} {cs d : List Char} (hw : 0 < width)
    (hd : d ∈ wrap width n cs) :
    d ≠ [] ∧ ∃ k, d.head? = cs[k * width]? := by
  induction n generalizing cs with
  | zero => cases hd
  | succ n ih =>
    cases cs with
    | nil => cases hd
    | cons c cs =>
      rcases List.mem_cons.1 hd with rfl | hd
      · cases width with
        | zero => omega
        | succ width => exact ⟨by simp, 0, by simp⟩
      · obtain ⟨hne, k, hk⟩ := ih hd
        refine ⟨hne, k + 1, ?_⟩
        rw [hk, List.getElem?_drop, Nat.succ_mul, Nat.add_comm]

theorem head?_line {m : List Char} (hne : m ≠ []) (h : '\n' ∉ m) : (m ++ ['\n']).head? ≠
    some '\n' := by
  cases m with
  | nil => exact absurd rfl hne
  | cons c m =>
    intro he
    obtain rfl := Option.some.inj he
    exact h (by simp)

theorem compacted_cr (ending : LineEnding) : compacted ending.cr = [] := by cases ending <;> decide

theorem newline_not_mem_cr (ending : LineEnding) : '\n' ∉ ending.cr := by cases ending <;> decide

theorem compacted_flatten (ending : LineEnding) (ls : List (List Char)) :
    compacted (ls.map (· ++ ending.cr)).flatten = compacted ls.flatten := by
  induction ls with
  | nil => rfl
  | cons l ls ih =>
    rw [List.map_cons, List.flatten_cons, List.flatten_cons, compacted_append, compacted_append,
      compacted_append, compacted_cr, List.append_nil, ih]

namespace Header

variable (h : Header)

theorem colon_mem_line : ':' ∈ h.line := by simp [line]

theorem line_ne_nil : h.line ≠ [] := List.ne_nil_of_mem h.colon_mem_line

theorem newline_not_mem_line : '\n' ∉ h.line := by
  have hkey := h.key_chars
  have hvalue := h.value_chars
  simp [line, hkey, hvalue]

end Header

theorem base64_chars {bytes : List UInt8} {c : Char} (h : c ∈ base64 bytes) :
    c ≠ '\n' ∧ c ≠ '-' ∧ Discovery.Ts.isSpace c = false := by
  have hall : ∀ d ∈ base64Alphabet ++ ['='], d ≠ '\n' ∧ d ≠ '-' ∧ Discovery.Ts.isSpace d = false :=
    List.all_iff_forall_prop.1 (by decide +kernel)
  refine hall c (List.mem_append.2 ?_)
  rcases mem_base64 h with h | rfl
  · exact .inl h
  · exact .inr (List.mem_singleton.2 rfl)

namespace Armor

variable (a : Armor) {payload : List UInt8}

theorem flatten_dataLines : (a.dataLines payload).flatten = base64 payload :=
  wrap_flatten a.width_pos (Nat.le_refl _)

theorem dataLines_ne_nil (hne : payload ≠ []) : a.dataLines payload ≠ [] := by
  intro h
  have hflat : (a.dataLines payload).flatten = base64 payload := a.flatten_dataLines
  rw [h] at hflat
  exact base64_ne_nil hne hflat.symm

theorem mem_dataLines {d : List Char} (h : d ∈ a.dataLines payload) :
    d ≠ [] ∧ d.head? ≠ some '=' ∧ ∀ c ∈ d, c ∈ base64 payload := by
  obtain ⟨hne, k, hk⟩ := head?_of_mem_wrap a.width_pos h
  refine ⟨hne, ?_, fun c hc => ?_⟩
  · obtain ⟨v, hv⟩ := a.width_dvd
    rw [hk, hv, Nat.mul_left_comm]
    exact base64_at_multiple payload (k * v)
  · rw [← a.flatten_dataLines]
    exact List.mem_flatten_of_mem h hc

theorem mem_crcLines {l : List Char} (h : l ∈ a.crcLines) :
    l.head? = some '=' ∧ '\n' ∉ l ∧ '-' ∉ l := by
  obtain ⟨bytes, -, rfl⟩ := List.mem_map.1 h
  refine ⟨rfl, fun hmem => ?_, fun hmem => ?_⟩
  · have hb := (List.mem_cons.1 hmem).resolve_left (by decide)
    exact (base64_chars hb).1 rfl
  · have hb := (List.mem_cons.1 hmem).resolve_left (by decide)
    exact (base64_chars hb).2.1 rfl

/-! ## What is decoded -/

/-- The lines of data and of the checksum, as they stand in the text. -/
def tailLines (payload : List UInt8) : List (List Char) :=
  (a.dataLines payload ++ a.crcLines).map (· ++ a.ending.cr)

theorem newline_not_mem_tailLines {l : List Char} (h : l ∈ a.tailLines payload) : '\n' ∉ l := by
  obtain ⟨m, hm, rfl⟩ := List.mem_map.1 h
  have hcr := newline_not_mem_cr a.ending
  intro hmem
  refine (List.mem_append.1 hmem).elim (fun hl => ?_) hcr
  rcases List.mem_append.1 hm with hm | hm
  · exact (base64_chars ((a.mem_dataLines hm).2.2 _ hl)).1 rfl
  · exact (a.mem_crcLines hm).2.1 hl

theorem tailLines_ne_nil {l : List Char} (h : l ∈ a.tailLines payload) : l ≠ [] := by
  obtain ⟨m, hm, rfl⟩ := List.mem_map.1 h
  intro hnil
  obtain ⟨rfl, -⟩ := List.append_eq_nil_iff.1 hnil
  rcases List.mem_append.1 hm with hm | hm
  · exact (a.mem_dataLines hm).1 rfl
  · have hhead := (a.mem_crcLines hm).1
    cases hhead

/-- The data is found behind lines of white space, and the checksum is left out. -/
theorem compacted_beforeCrc (hne : payload ≠ []) {blanks : List (List Char)}
    (hblanks : ∀ l ∈ blanks, l = ['\r']) :
    compacted (Dart.beforeCrc (Lines.terminated '\n' (blanks ++ a.tailLines payload))) =
        base64 payload := by
  generalize hlines : blanks ++ (a.dataLines payload).map (· ++ a.ending.cr) = ls
  -- no line of the data begins with the sign of the checksum
  have htail : ∀ l ∈ (a.dataLines payload).map (· ++ a.ending.cr), '\n' ∉ l ∧
      (l ++ ['\n']).head? ≠ some '=' := by
    intro l hl
    have hmem : l ∈ a.tailLines payload := by
      rw [tailLines, List.map_append]
      exact List.mem_append_left _ hl
    refine ⟨a.newline_not_mem_tailLines hmem, ?_⟩
    obtain ⟨d, hd, rfl⟩ := List.mem_map.1 hl
    obtain ⟨hdne, hhead, -⟩ := a.mem_dataLines hd
    rw [List.append_assoc, List.head?_append_of_ne_nil _ hdne]
    exact hhead
  have hall : ∀ l ∈ ls, '\n' ∉ l ∧ (l ++ ['\n']).head? ≠ some '=' := by
    intro l hl
    rw [← hlines] at hl
    rcases List.mem_append.1 hl with hl | hl
    · obtain rfl := hblanks l hl
      exact ⟨by decide, by decide⟩
    · exact htail l hl
  have hsplit : Lines.terminated '\n' (blanks ++ a.tailLines payload) =
      Lines.terminated '\n' ls ++ Lines.terminated '\n' (a.crcLines.map (· ++ a.ending.cr)) := by
    rw [← hlines, tailLines, List.map_append, ← List.append_assoc, Lines.terminated_append]
  -- what is after the data is the checksum's line or nothing
  have hcrc : Lines.terminated '\n' (a.crcLines.map (· ++ a.ending.cr)) = [] ∨
      (Lines.terminated '\n' (a.crcLines.map (· ++ a.ending.cr))).head? = some '=' := by
    unfold crcLines
    cases a.crc with
    | none => exact .inl rfl
    | some bytes => exact .inr rfl
  -- without blanks the lines are the text that was split into them
  have hflat : compacted ls.flatten = base64 payload := by
    have hspace : compacted blanks.flatten = [] := by
      refine List.filter_eq_nil_iff.2 fun c hc => ?_
      obtain ⟨l, hl, hcl⟩ := List.mem_flatten.1 hc
      rw [hblanks l hl] at hcl
      obtain rfl := List.mem_singleton.1 hcl
      decide
    have hdata : compacted (base64 payload) = base64 payload :=
      List.filter_eq_self.2 fun c hc => by rw [(base64_chars hc).2.2]; rfl
    rw [← hlines, List.flatten_append, compacted_append, hspace, List.nil_append, compacted_flatten,
      flatten_dataLines, hdata]
  rw [hsplit]
  cases ls with
  | nil =>
    have hnil := (List.append_eq_nil_iff.1 hlines).2
    exact absurd (List.map_eq_nil_iff.1 hnil) (a.dataLines_ne_nil hne)
  | cons l ls =>
    rw [beforeCrc_terminated (fun m hm => (hall m hm).1)
      (fun m hm => (hall m (List.mem_cons_of_mem l hm)).2) hcrc, hflat]

theorem body_eq : a.body payload =
    Lines.terminated '\n' ((a.ending.cr :: a.headers.map fun h => h.line ++ a.ending.cr) ++
      a.ending.cr :: a.tailLines payload) := by
  unfold body lines tailLines
  simp [Function.comp_def]

/-- The header lines are skipped at an empty line, or there are none. -/
theorem decodeBody_body (hne : payload ≠ []) (h : a.ending = .lf ∨ a.headers = []) :
    Dart.decodeBody (a.body payload) = .ok payload := by
  -- the blank line is found, and what is after it are the body's lines
  have hfound : ∃ blanks : List (List Char), (∀ l ∈ blanks, l = ['\r']) ∧
      Dart.afterBlank (a.body payload) = Lines.terminated '\n' (blanks ++ a.tailLines payload) := by
    unfold Dart.afterBlank Dart.indexOf
    rw [List.drop_zero, body_eq]
    cases hending : a.ending with
    | lf =>
      refine ⟨[], by simp, ?_⟩
      -- no line holds a line end and none is empty, so the first blank line is the separator
      have hlines : ∀ m ∈ ([] : List Char) :: a.headers.map (fun h => h.line ++ []), '\n' ∉ m := by
        intro m hm
        rcases List.mem_cons.1 hm with rfl | hm
        · simp
        · obtain ⟨h, -, rfl⟩ := List.mem_map.1 hm
          rw [List.append_nil]
          exact h.newline_not_mem_line
      have hheads : ∀ m ∈ a.headers.map (fun h => h.line ++ []), (m ++ ['\n']).head? ≠
          some '\n' := by
        intro m hm
        refine head?_line ?_ (hlines m (List.mem_cons_of_mem _ hm))
        obtain ⟨h, -, rfl⟩ := List.mem_map.1 hm
        rw [List.append_nil]
        exact h.line_ne_nil
      have hfind := find_terminated hlines hheads
        (Lines.terminated '\n' ([] :: a.tailLines payload))
      rw [if_pos (show (Lines.terminated '\n' ([] :: a.tailLines payload)).head? =
          some '\n' from rfl)] at hfind
      simp only [LineEnding.cr]
      rw [Lines.terminated_append, hfind]
      simp only [Option.map_some, Nat.add_zero]
      generalize hfront : Lines.terminated '\n' ([] :: a.headers.map fun h => h.line ++ []) = front
      have hpos : 0 < front.length := by
        rw [← hfront, Lines.terminated, List.nil_append, List.length_cons]
        omega
      rw [show front.length - 1 + 2 = front.length + 1 by omega, List.drop_length_add_append]
      rfl
    | crlf =>
      -- with carriage returns only two in a row look like a blank line
      have hheaders : a.headers = [] := h.resolve_left (by simp [hending])
      refine ⟨[['\r'], ['\r']], by simp, ?_⟩
      rw [hheaders]
      have hlines : ∀ m ∈ ['\r'] :: ['\r'] :: a.tailLines payload, '\n' ∉ m := by
        intro m hm
        rcases List.mem_cons.1 hm with rfl | hm
        · decide
        · rcases List.mem_cons.1 hm with rfl | hm
          · decide
          · exact a.newline_not_mem_tailLines hm
      have hheads : ∀ m ∈ ['\r'] :: a.tailLines payload, (m ++ ['\n']).head? ≠ some '\n' := by
        intro m hm
        refine head?_line ?_ (hlines m (List.mem_cons_of_mem _ hm))
        rcases List.mem_cons.1 hm with rfl | hm
        · decide
        · exact a.tailLines_ne_nil hm
      have hfind := find_terminated hlines hheads []
      rw [List.head?_nil, if_neg (by simp), List.append_nil] at hfind
      simp only [LineEnding.cr, List.map_nil, List.singleton_append]
      rw [hfind]
      rfl
  obtain ⟨blanks, hblanks, hafter⟩ := hfound
  have hcompact := a.compacted_beforeCrc hne hblanks
  unfold Dart.decodeBody
  dsimp only
  rw [hafter, hcompact, if_neg (base64_ne_nil hne), base64Decode_base64]
  rfl

end Armor

/-! ## What is not decoded -/

theorem find_blank_none {first last : List Char} {ls : List (List Char)} (hfirst : '\n' ∉ first)
    (hls : ∀ m ∈ ls, m ≠ [] ∧ '\n' ∉ m) (hlast : '\n' ∉ last) :
    find ['\n', '\n'] (Lines.terminated '\n' (first :: ls) ++ last) = .none := by
  have hlines : ∀ m ∈ first :: ls, '\n' ∉ m := by
    intro m hm
    rcases List.mem_cons.1 hm with rfl | hm
    · exact hfirst
    · exact (hls m hm).2
  have hhead : last.head? ≠ some '\n' := fun h => hlast (List.mem_of_head? h)
  have hnone : find ['\n', '\n'] last = .none := by
    have hskip := find_of_not_mem (p := ['\n']) hlast []
    rw [List.append_nil] at hskip
    rw [hskip]
    rfl
  rw [find_terminated hlines (fun m hm => head?_line (hls m hm).1 (hls m hm).2),
      if_neg hhead, hnone]
  rfl

/-- Header lines in front of which the block begins, and no empty line. -/
theorem decodeBody_lines (ending : LineEnding) {last : List Char} {ls : List (List Char)}
    (hls : ∀ m ∈ ls, m ≠ [] ∧ '\n' ∉ m) (hlast : '\n' ∉ last) (hcolon : ':' ∈ ls.headD last) :
    Dart.decodeBody (Lines.terminated '\n' (ending.cr :: ls) ++ last) = .none := by
  have hblank := find_blank_none (newline_not_mem_cr ending) hls hlast
  have hcr : ending.cr = [] ∨ ending.cr = ['\r'] := by cases ending <;> simp [LineEnding.cr]
  cases ls with
  | nil =>
    have hbody : Lines.terminated '\n' [ending.cr] ++ last = ending.cr ++ '\n' :: (last ++ []) := by
      simp [Lines.terminated]
    rw [hbody] at hblank ⊢
    exact decodeBody_eq_none hcr hlast hcolon hblank
  | cons l ls =>
    have hbody : Lines.terminated '\n' (ending.cr :: l :: ls) ++ last =
        ending.cr ++ '\n' :: (l ++ '\n' :: (Lines.terminated '\n' ls ++ last)) := by
      simp [Lines.terminated]
    rw [hbody] at hblank ⊢
    exact decodeBody_eq_none hcr (hls l (by simp)).2 hcolon hblank

theorem not_infix_cr (ending : LineEnding) {l : List Char} (h : ¬ endMarker <:+: l) :
    ¬ endMarker <:+: l ++ ending.cr := by
  cases ending with
  | lf =>
    simp only [LineEnding.cr, List.append_nil]
    exact h
  | crlf =>
    intro hi
    rcases infix_of_delimited newline_not_mem_markers.2.2 hi with hi | hi
    · exact h hi
    · exact absurd (List.infix_nil.1 hi) (by decide)

/-- The colon of a header line is before an end marker in it. -/
theorem colon_mem_of_line {h : Header} {x y : List Char} (he : h.line = x ++ (endMarker ++ y)) :
    ':' ∈ x := by
  have hcolon : ':' ∉ endMarker := by decide
  rcases List.append_eq_append_iff.1 he with ⟨c, hx, hc⟩ | ⟨c, hkey, hc⟩
  · cases c with
    | nil =>
      -- the marker does not begin with the colon
      have hhead : (':' :: ' ' :: h.value).head? = (endMarker ++ y).head? := congrArg List.head? hc
      rw [List.head?_append_of_ne_nil _ (by decide)] at hhead
      exact absurd (Option.some.inj hhead) (by decide)
    | cons d c =>
      obtain ⟨rfl, -⟩ := List.cons.inj hc
      rw [hx]
      simp
  · -- the marker begins in the key, so it ends there or has the colon
    rcases List.append_eq_append_iff.1 hc with ⟨e, he, -⟩ | ⟨e, he, hrest⟩
    · exact absurd ⟨x, e, by rw [hkey, he, List.append_assoc]⟩ h.key_chars.1
    · cases e with
      | nil =>
        rw [List.append_nil] at he
        exact absurd ⟨x, [], by rw [hkey, he, List.append_nil]⟩ h.key_chars.1
      | cons d e =>
        obtain ⟨rfl, -⟩ := List.cons.inj hrest
        exact absurd (by rw [he]; simp) hcolon

namespace Armor

variable (a : Armor) {payload : List UInt8}

/-- The decoder reads up to the first end marker in the body. -/
theorem decodePgpArmor_body (front rest : List Char)
    (hbody : a.body payload ++ endMarker = front ++ (endMarker ++ rest))
    (hfront : ¬ endMarker <:+: dashes ++ front) :
    Dart.decodePgpArmor (a.text payload) = Dart.decodeBody front := by
  have htext : a.body payload ++ (endMarker ++ (a.label ++ (dashes ++ a.after))) =
      front ++ (endMarker ++ (rest ++ (a.label ++ (dashes ++ a.after)))) := by
    rw [← List.append_assoc, hbody, List.append_assoc, List.append_assoc]
  unfold text
  rw [htext]
  exact decodePgpArmor_eq a.before_chars a.label_chars hfront _

theorem not_infix_front (ls : List (List Char)) (last : List Char)
    (hls : ∀ l ∈ ls, ¬ endMarker <:+: l) (hlast : ¬ endMarker <:+: last) :
    ¬ endMarker <:+: dashes ++ (Lines.terminated '\n' (a.ending.cr :: ls) ++ last) := by
  have hfront : dashes ++ (Lines.terminated '\n' (a.ending.cr :: ls) ++ last) =
      Lines.terminated '\n' ((dashes ++ a.ending.cr) :: ls) ++ last := by
    simp [Lines.terminated]
  rw [hfront]
  refine not_infix_terminated newline_not_mem_markers.2.1 (fun l hl => ?_) hlast
  rcases List.mem_cons.1 hl with rfl | hl
  · refine not_infix_cr a.ending fun hi => ?_
    exact absurd hi.length_le (by decide)
  · exact hls l hl

theorem headerLine_cr {headers : List Header} {m : List Char}
    (hm : m ∈ headers.map fun h => h.line ++ a.ending.cr) : m ≠ [] ∧ '\n' ∉ m := by
  obtain ⟨h, -, rfl⟩ := List.mem_map.1 hm
  refine ⟨fun hnil => h.line_ne_nil (List.append_eq_nil_iff.1 hnil).1, fun hmem => ?_⟩
  exact (List.mem_append.1 hmem).elim h.newline_not_mem_line (newline_not_mem_cr a.ending)

theorem not_infix_body (hmarker : ∀ h ∈ a.headers, ¬ endMarker <:+: h.line) :
    ¬ endMarker <:+: dashes ++ a.body payload := by
  have hdash : '-' ∈ endMarker := by decide
  rw [body_eq, ← List.append_nil (Lines.terminated _ _), List.cons_append]
  refine a.not_infix_front _ _ (fun l hl => ?_) fun hi => absurd (List.infix_nil.1 hi) (by decide)
  rcases List.mem_append.1 hl with hl | hl
  · obtain ⟨g, hg, rfl⟩ := List.mem_map.1 hl
    exact not_infix_cr a.ending (hmarker g hg)
  · rcases List.mem_cons.1 hl with rfl | hl
    · exact fun hi => absurd hi.length_le (by cases a.ending <;> decide)
    · obtain ⟨m, hm, rfl⟩ := List.mem_map.1 hl
      refine not_infix_cr a.ending fun hi => ?_
      have hmem : '-' ∈ m := hi.subset hdash
      rcases List.mem_append.1 hm with hm | hm
      · exact (base64_chars ((a.mem_dataLines hm).2.2 _ hmem)).2.1 rfl
      · exact (a.mem_crcLines hm).2.2 hmem

/-- The payload is found if the header lines are skipped and none of them has an end marker. -/
theorem decodePgpArmor_text (hne : payload ≠ []) (h : a.ending = .lf ∨ a.headers = [])
    (hmarker : ∀ h ∈ a.headers, ¬ endMarker <:+: h.line) :
    Dart.decodePgpArmor (a.text payload) = .ok payload := by
  rw [a.decodePgpArmor_body (a.body payload) [] (by rw [List.append_nil])
      (a.not_infix_body hmarker)]
  exact a.decodeBody_body hne h

/-- The empty line is not found with CRLF. -/
theorem decodePgpArmor_crlf (hending : a.ending = .crlf) (hheaders : a.headers ≠ [])
    (hmarker : ∀ h ∈ a.headers, ¬ endMarker <:+: h.line) :
    Dart.decodePgpArmor (a.text payload) = .none := by
  rw [a.decodePgpArmor_body (a.body payload) [] (by rw [List.append_nil])
    (a.not_infix_body hmarker), body_eq, ← List.append_nil (Lines.terminated _ _), List.cons_append]
  refine decodeBody_lines a.ending (fun m hm => ?_) (by simp) ?_
  · rcases List.mem_append.1 hm with hm | hm
    · exact a.headerLine_cr hm
    · rcases List.mem_cons.1 hm with rfl | hm
      · rw [hending]
        decide
      · exact ⟨a.tailLines_ne_nil hm, a.newline_not_mem_tailLines hm⟩
  · cases hh : a.headers with
    | nil => exact absurd hh hheaders
    | cons h hs =>
      have hcolon := h.colon_mem_line
      simp [hcolon]

/-- The body ends at the first end marker in a header line. -/
theorem decodePgpArmor_marker {before after : List Header} {h : Header}
    (hheaders : a.headers = before ++ h :: after) (hbefore : ∀ g ∈ before, ¬ endMarker <:+: g.line)
    (hmarker : endMarker <:+: h.line) : Dart.decodePgpArmor (a.text payload) = .none := by
  obtain ⟨x, y, hline, hx⟩ := exists_first (by decide) hmarker
  have hcolon : ':' ∈ x := colon_mem_of_line hline
  have hnewline : '\n' ∉ x := by
    intro hmem
    refine h.newline_not_mem_line ?_
    rw [hline]
    exact List.mem_append_left _ hmem
  generalize hlines : (before.map fun g => g.line ++ a.ending.cr) = ls
  have hbody : a.body payload ++ endMarker = (Lines.terminated '\n' (a.ending.cr :: ls) ++ x) ++
      (endMarker ++ (y ++ (a.ending.cr ++ '\n' ::
        (Lines.terminated '\n' ((after.map fun g => g.line ++ a.ending.cr) ++
          a.ending.cr :: a.tailLines payload) ++ endMarker)))) := by
    rw [body_eq, hheaders, List.map_append, List.map_cons, hlines, hline]
    simp [Lines.terminated_append, Lines.terminated]
  have hfront := a.not_infix_front ls x (fun l hl => ?_) hx
  · rw [a.decodePgpArmor_body _ _ hbody hfront]
    refine decodeBody_lines a.ending (fun m hm => ?_) hnewline ?_
    · rw [← hlines] at hm
      exact a.headerLine_cr hm
    · rw [← hlines]
      cases before with
      | nil => exact hcolon
      | cons g gs =>
        have hg := g.colon_mem_line
        simp [hg]
  · rw [← hlines] at hl
    obtain ⟨g, hg, rfl⟩ := List.mem_map.1 hl
    exact not_infix_cr a.ending (hbefore g hg)

/-- Whether the decoder can find the data: the empty line behind the header lines, and the end. -/
def Readable : Prop :=
  (a.ending = .lf ∨ a.headers = []) ∧ ∀ h ∈ a.headers, ¬ endMarker <:+: h.line

/-- Otherwise the text of a header line is taken for data. -/
theorem decodePgpArmor_text_none (h : ¬ a.Readable) :
    Dart.decodePgpArmor (a.text payload) = .none := by
  classical
  cases hfind : a.headers.find? fun h => decide (endMarker <:+: h.line) with
  | none =>
    have hmarker : ∀ h ∈ a.headers, ¬ endMarker <:+: h.line := by
      intro h hh hi
      have hnot := List.find?_eq_none.1 hfind h hh
      simp [hi] at hnot
    have hnot : ¬ (a.ending = .lf ∨ a.headers = []) := fun hl => h ⟨hl, hmarker⟩
    rw [not_or] at hnot
    have hcrlf : a.ending = .crlf := by
      cases hending : a.ending with
      | lf => exact absurd hending hnot.1
      | crlf => rfl
    exact a.decodePgpArmor_crlf hcrlf hnot.2 hmarker
  | some g =>
    obtain ⟨hg, before, after, hheaders, hbefore⟩ := List.find?_eq_some_iff_append.1 hfind
    exact a.decodePgpArmor_marker hheaders (by simpa using hbefore) (by simpa using hg)

end Armor

/-! ## RFC 9980 -/

/-- A text looks as what it is decoded to. -/
theorem messageLooksPqc_text {sample : String} {payload : List UInt8} (hne : sample ≠ "")
    (hpayload : payload ≠ []) (hdecode : Dart.decodePgpArmor sample = .ok payload) :
    Dart.messageLooksPqc (some sample) .none .none = Dart.messageLooksPqc .none .none
        (some payload) := by
  obtain ⟨b, hb⟩ := looksLikeRfc9980_ok payload
  have hsample : Dart.samplesLookPqc [some sample, .none] = .ok b := by
    rw [Dart.samplesLookPqc, if_neg hne, hdecode]
    dsimp only
    rw [hb, Outcome.ok_bind]
    cases b <;> rfl
  unfold Dart.messageLooksPqc
  simp only [Outcome.ok_bind, Bool.false_eq_true, if_false, if_neg hpayload]
  rw [hsample, hb, Outcome.ok_bind]
  cases b <;> rfl

/-- **An armored payload is decoded as itself, and looks like RFC 9980 if it does**, exactly if the
decoder finds the empty line behind the header lines and no end marker in them. -/
theorem decodePgpArmor_iff (a : Armor) {payload : List UInt8} (hne : payload ≠ []) :
    (Dart.decodePgpArmor (a.text payload) = .ok payload ∧
      (Dart.messageLooksPqc .none .none (some payload) = .ok true →
        Dart.messageLooksPqc (some (a.text payload)) .none .none = .ok true)) ↔ a.Readable := by
  constructor
  · intro h
    by_contra hnot
    have hnone := h.1
    rw [a.decodePgpArmor_text_none hnot] at hnone
    cases hnone
  · intro h
    have hdecode := a.decodePgpArmor_text hne h.1 h.2
    have htext : a.text payload ≠ "" := by
      intro htext
      have hnil := congrArg String.toList htext
      rw [Armor.text, String.toList_ofList] at hnil
      have hmarker := (List.append_eq_nil_iff.1 (List.append_eq_nil_iff.1 hnil).2).1
      exact absurd hmarker (by decide)
    refine ⟨hdecode, fun hlooks => ?_⟩
    rw [messageLooksPqc_text htext hne hdecode, hlooks]

/-- A text with a header line. -/
def headedArmor (ending : LineEnding) : Armor where
  before := []
  label := "MESSAGE".toList
  headers := [⟨"Version".toList, "1".toList, by decide, by decide⟩]
  ending := ending
  width := 64
  crc := .none
  after := []
  before_chars := fun h => absurd (List.infix_nil.1 h) (by decide)
  label_chars := by decide
  width_pos := by decide
  width_dvd := by decide

/-- A key packet of version 6 with algorithm 35. -/
def pqcKey : List UInt8 := [0xc6, 0x06, 0x06, 0x00, 0x00, 0x00, 0x00, 0x23]

theorem decodePgpArmor_iff_headed :
    Dart.decodePgpArmor ((headedArmor .lf).text pqcKey) = .ok pqcKey := by
  have hreadable : (headedArmor .lf).Readable := by
    refine ⟨.inl rfl, fun h hh hi => ?_⟩
    obtain rfl := List.mem_singleton.1 hh
    exact absurd hi.length_le (by decide)
  exact ((decodePgpArmor_iff (headedArmor .lf) (by decide)).2 hreadable).1

theorem armor_not_decoded :
    Dart.decodePgpArmor ((headedArmor .crlf).text pqcKey) = .none ∧
      Dart.messageLooksPqc .none .none (some pqcKey) = .ok true ∧
      Dart.messageLooksPqc (some ((headedArmor .crlf).text pqcKey)) .none .none = .ok false := by
  have hnone : Dart.decodePgpArmor ((headedArmor .crlf).text pqcKey) = .none := by
    refine (headedArmor .crlf).decodePgpArmor_text_none fun h => ?_
    rcases h.1 with h | h
    · cases h
    · cases h
  refine ⟨hnone, by decide +kernel, ?_⟩
  unfold Dart.messageLooksPqc
  simp only [Outcome.ok_bind, Bool.false_eq_true, if_false]
  rw [Dart.samplesLookPqc, hnone]
  split <;> rfl

end OpenPgp
