import SdkPubkey.OpenPgp.Packets

/-!
# SComm key ids

`ScommKeyId` of Rust (`crates/discovery/src/scomm_key_id.rs`) and of Dart
(`lib/src/discovery/scomm_key_id.dart`): the last octets of the fingerprint of the OpenPGP key
packet that the purpose selects, or of the SHA-256 of anything else. A fault of the Dart functions
is an exception.

* `keyIds_agree_iff`: when both derive one key id. Dart throws at a subkey that is too short to hold
  its algorithm, if it comes to it.
-/

namespace OpenPgp

open Lib Lib.Outcome

structure Digests where
  sha1 : List UInt8 → { digest : List UInt8 // digest.length = 20 }
  sha256 : List UInt8 → { digest : List UInt8 // digest.length = 32 }

/-- The last octets of a digest. -/
def lastEight (digest : List UInt8) : List UInt8 := digest.drop (digest.length - 8)

def isKey (p : Packet) : Bool := p.tag == 6 || p.tag == 14

def isEncryption (purpose : Option String) : Bool :=
  purpose == some "encryption" || purpose == some "key_agreement"

def oidCv25519 : List UInt8 := [0x2b, 0x06, 0x01, 0x04, 0x01, 0x97, 0x55, 0x01, 0x05, 0x01]
def oidX25519 : List UInt8 := [0x2b, 0x65, 0x6e]
def oidX448 : List UInt8 := [0x2b, 0x65, 0x6f]

/-! ## Rust -/

namespace Rust

def upperDigits : List Char := "0123456789ABCDEF".toList

/-- `hex::encode_upper`. -/
def encodeUpper (bytes : List UInt8) : String :=
  String.ofList (bytes.flatMap fun b =>
    [upperDigits.getD (b.toNat / 16) '0', upperDigits.getD (b.toNat % 16) '0'])

def format (eightBytes : List UInt8) : Option String :=
  if eightBytes.length ≠ 8 then .none else some (encodeUpper eightBytes)

def keyIdFromBody (D : Digests) (body : List UInt8) : Option String :=
  match body.head? with
  | .none => .none
  | some version =>
    if version = 4 then
      if 0xffff < body.length then .none
      else format (lastEight (D.sha1 (0x99 :: (i2osp body.length 2 ++ body))).1)
    else if version = 6 then
      format (lastEight (D.sha256 (0x9b :: (i2osp body.length 4 ++ body))).1)
    else .none

def oidEq (body : List UInt8) (offset : Nat) (oid : List UInt8) : Bool :=
  match body[offset]? with
  | .none => false
  | some len => getRange body (offset + 1) (offset + 1 + len.toNat) == some oid

def subkeyMatches (body : List UInt8) (algorithmName : String) : Bool :=
  if body.head? ≠ some 4 ∧ body.head? ≠ some 6 then false
  else
    match body[5]? with
    | .none => false
    | some algorithm =>
      let offset := if body.head? = some 6 then 10 else 6
      if algorithmName = "openpgp-cv25519" then
        algorithm == 25 ||
          (algorithm == 18 && (oidEq body offset oidCv25519 || oidEq body offset oidX25519))
      else if algorithmName = "openpgp-cv448" then
        algorithm == 26 || (algorithm == 18 && oidEq body offset oidX448)
      else if algorithmName = "openpgp-mlkem768-x25519" then algorithm == 35
      else false

/-- The body of the key packet that the purpose selects. -/
def selectBody (first : Packet) (rest : List Packet) (purpose algorithm : Option String) :
    List UInt8 :=
  let keys := first :: rest
  if keys.length = 1 then first.body
  else if isEncryption purpose then
    let subs := keys.filter fun k => k.tag == 14
    let matched := algorithm.bind fun alg => subs.find? fun k => subkeyMatches k.body alg
    ((matched.map (·.body)).or (subs.head?.map (·.body))).getD first.body
  else ((keys.find? fun k => k.tag == 6).map (·.body)).getD first.body

def openpgpKeyId (D : Digests) (w : PointerWidth) (blob : List UInt8)
    (purpose algorithm : Option String) : Outcome String := do
  let ps ← packets w (blob.length + 1) blob
  match ps.filter isKey with
  | [] => .none
  | first :: rest => ofOption (keyIdFromBody D (selectBody first rest purpose algorithm))

def deriveFor (D : Digests) (w : PointerWidth) (publicMaterial : List UInt8)
    (purpose algorithm : Option String) : Outcome String :=
  match openpgpKeyId D w publicMaterial purpose algorithm with
  | .ok id => .ok id
  | .none =>
    match format (lastEight (D.sha256 publicMaterial).1) with
    | some id => .ok id
    -- `expect`
    | .none => .fault
  | .fault => .fault
  | .spin => .spin

end Rust

/-! ## Dart -/

namespace Dart

/-- `try` around a part of a function, with `return null` in its `catch`. -/
def orNull {α : Type} : Outcome α → Outcome α
  | .fault => .none
  | r => r

/-- Four octets with shifts, as both kinds of length have it. -/
def uint32At (data : List UInt8) (offset : Nat) : Outcome Nat := do
  let a ← index data offset
  let b ← index data (offset + 1)
  let c ← index data (offset + 2)
  let d ← index data (offset + 3)
  pure (a.toNat <<< 24 ||| b.toNat <<< 16 ||| c.toNat <<< 8 ||| d.toNat)

def newLength (data : List UInt8) (offset : Nat) : Outcome (Nat × Nat) := do
  let first ← index data offset
  if first < 192 then pure (first.toNat, 1)
  else if first < 224 then do
    let second ← index data (offset + 1)
    pure ((first.toNat - 192) * 256 + second.toNat + 192, 2)
  else if first = 255 then do
    let len ← uint32At data (offset + 1)
    pure (len, 5)
  else .fault

def oldLength (data : List UInt8) (offset : Nat) (lenType : UInt8) : Outcome (Nat × Nat) :=
  match lenType with
  | 0 => do
    let b ← index data (offset + 1)
    pure (b.toNat, 1)
  | 1 => do
    let a ← index data (offset + 1)
    let b ← index data (offset + 2)
    pure (a.toNat <<< 8 ||| b.toNat, 2)
  | 2 => do
    let length ← uint32At data (offset + 1)
    pure (length, 4)
  | _ => .none

/-- What the `try` block of the loop computes. -/
def header (data : List UInt8) (offset : Nat) (first : UInt8) : Outcome (UInt8 × Nat × Nat) :=
  if first &&& 0x40 ≠ 0 then do
    let (length, size) ← newLength data (offset + 1)
    pure (first &&& 0x3f, 1 + size, length)
  else do
    let (length, size) ← oldLength data offset (first &&& 0x03)
    pure ((first &&& 0x3c) >>> 2, 1 + size, length)

def packetsTurn (data : List UInt8) (s : Nat × List Packet) :
    Outcome ((Nat × List Packet) ⊕ List Packet) :=
  let (offset, out) := s
  if offset < data.length then do
    let first ← index data offset
    if first &&& 0x80 = 0 then .none
    else do
      let (tag, hdr, length) ← orNull (header data offset first)
      if data.length < offset + hdr + length then .none
      else do
        let body ← slice data (offset + hdr) (offset + hdr + length)
        pure (.inl (offset + hdr + length, out ++ [⟨tag, body⟩]))
  else pure (.inr out)

def packets (fuel : Nat) (blob : List UInt8) : Outcome (List Packet) :=
  loop (packetsTurn blob) fuel (0, [])

/-- `toRadixString(16).padLeft(2, '0')`. -/
def hexOctet (b : UInt8) : List Char :=
  let digits := Nat.toDigits 16 b.toNat
  List.replicate (2 - digits.length) '0' ++ digits

def format (eightBytes : List UInt8) : Outcome String :=
  if eightBytes.length ≠ 8 then .fault
  else .ok (String.ofList ((eightBytes.flatMap hexOctet).map Char.toUpper))

def keyIdFromBody (D : Digests) (body : List UInt8) : Outcome String :=
  if body = [] then .none
  else do
    let version ← index body 0
    let n := body.length
    if version = 4 then
      if 0xffff < n then .none
      else
        let octets : List UInt8 := [0x99, UInt8.ofNat (n >>> 8 &&& 0xff), UInt8.ofNat (n &&& 0xff)]
        format (lastEight (D.sha1 (octets ++ body)).1)
    else if version = 6 then
      let octets : List UInt8 :=
        [0x9b, UInt8.ofNat (n >>> 24 &&& 0xff), UInt8.ofNat (n >>> 16 &&& 0xff),
        UInt8.ofNat (n >>> 8 &&& 0xff), UInt8.ofNat (n &&& 0xff)]
      format (lastEight (D.sha256 (octets ++ body)).1)
    else .none

def oid (body : List UInt8) (offset : Nat) : Outcome (Option (List UInt8)) :=
  if body.length ≤ offset then .ok .none
  else do
    let len ← index body offset
    let start := offset + 1
    if body.length < start + len.toNat then .ok .none
    else do
      let bytes ← slice body start (start + len.toNat)
      .ok (some bytes)

def eq (a : Option (List UInt8)) (b : List UInt8) : Bool :=
  match a with
  | .none => false
  | some a => a.length == b.length && (a.zip b).all fun (x, y) => x == y

def subkeyMatches (body : List UInt8) (algorithmName : String) : Outcome Bool :=
  if body = [] ∨ (body.head? ≠ some 4 ∧ body.head? ≠ some 6) then .ok false
  else do
    let algorithm ← index body 5
    let offset := if body.head? = some 6 then 10 else 6
    if algorithmName = "openpgp-cv25519" ∧ algorithm = 25 then .ok true
    else if algorithmName = "openpgp-cv25519" ∧ algorithm = 18 then do
      let oid ← oid body offset
      .ok (eq oid oidCv25519 || eq oid oidX25519)
    else if algorithmName = "openpgp-cv448" ∧ algorithm = 26 then .ok true
    else if algorithmName = "openpgp-cv448" ∧ algorithm = 18 then do
      let oid ← oid body offset
      .ok (eq oid oidX448)
    else if algorithmName = "openpgp-mlkem768-x25519" then .ok (algorithm == 35)
    else .ok false

/-- The loop over the subkeys, up to the first that matches. -/
def findMatch (algorithm : String) : List Packet → Outcome (Option Packet)
  | [] => .ok .none
  | k :: subs => do
    if ← subkeyMatches k.body algorithm then .ok (some k) else findMatch algorithm subs

def selectBody (first : Packet) (rest : List Packet) (purpose algorithm : Option String) :
    Outcome (List UInt8) :=
  let keys := first :: rest
  if keys.length = 1 then .ok first.body
  else if isEncryption purpose then do
    let subs := keys.filter fun k => k.tag == 14
    let matched ← match algorithm with
      | some alg => findMatch alg subs
      | .none => .ok .none
    .ok (match matched with
      | some k => k.body
      | .none => (subs.head?.getD first).body)
  else .ok ((keys.find? fun k => k.tag == 6).getD first).body

def openPgpKeyId (D : Digests) (blob : List UInt8) (purpose algorithm : Option String) :
    Outcome String := do
  let ps ← packets (blob.length + 1) blob
  match ps.filter isKey with
  | [] => .none
  | first :: rest => keyIdFromBody D (← selectBody first rest purpose algorithm)

def derive (D : Digests) (publicMaterial : List UInt8) (purpose algorithm : Option String) :
    Outcome String :=
  match openPgpKeyId D publicMaterial purpose algorithm with
  | .ok id => .ok id
  | .none => format (lastEight (D.sha256 publicMaterial).1)
  | .fault => .fault
  | .spin => .spin

end Dart

/-! ## Digests -/

theorem length_lastEight {digest : List UInt8} (h : 8 ≤ digest.length) :
    (lastEight digest).length = 8 := by
  rw [lastEight, List.length_drop]
  omega

theorem hexOctet_upper (b : UInt8) :
    (Dart.hexOctet b).map Char.toUpper =
      [Rust.upperDigits.getD (b.toNat / 16) '0', Rust.upperDigits.getD (b.toNat % 16) '0'] := by
  revert b
  apply uint8_all
  decide +kernel

theorem rust_format {bytes : List UInt8} (h : bytes.length = 8) :
    Rust.format bytes = some (Rust.encodeUpper bytes) := if_neg (not_not.2 h)

theorem dart_format {bytes : List UInt8} (h : bytes.length = 8) :
    Dart.format bytes = .ok (Rust.encodeUpper bytes) := by
  unfold Dart.format Rust.encodeUpper
  rw [if_neg (not_not.2 h), List.map_flatMap]
  simp only [hexOctet_upper]

theorem and_255 (n : Nat) : n &&& 0xff = n % 256 := Nat.and_two_pow_sub_one_eq_mod n 8

theorem i2osp_two (n : Nat) : [UInt8.ofNat (n >>> 8 &&& 0xff), UInt8.ofNat (n &&& 0xff)] =
    i2osp n 2 := by
  simp only [and_255, Nat.shiftRight_eq_div_pow, i2osp, List.nil_append, List.singleton_append]

theorem i2osp_four (n : Nat) :
    [UInt8.ofNat (n >>> 24 &&& 0xff), UInt8.ofNat (n >>> 16 &&& 0xff),
    UInt8.ofNat (n >>> 8 &&& 0xff), UInt8.ofNat (n &&& 0xff)] = i2osp n 4 := by
  simp only [and_255, Nat.shiftRight_eq_div_pow, i2osp, List.nil_append, List.cons_append,
    Nat.div_div_eq_div_mul]

theorem keyIdFromBody_eq (D : Digests) (body : List UInt8) :
    Dart.keyIdFromBody D body = ofOption (Rust.keyIdFromBody D body) := by
  have h20 : ∀ m, 8 ≤ (D.sha1 m).1.length := fun m => by rw [(D.sha1 m).2]; decide
  have h32 : ∀ m, 8 ≤ (D.sha256 m).1.length := fun m => by rw [(D.sha256 m).2]; decide
  unfold Dart.keyIdFromBody Rust.keyIdFromBody
  cases body with
  | nil => rfl
  | cons version rest =>
    rw [if_neg (by simp), index_eq (by simp), Outcome.ok_bind, List.getElem_cons_zero,
        List.head?_cons]
    dsimp only
    by_cases h4 : version = 4
    · rw [if_pos h4, if_pos h4]
      by_cases hn : 0xffff < (version :: rest).length
      · rw [if_pos hn, if_pos hn]
        rfl
      · rw [if_neg hn, if_neg hn, i2osp_two, rust_format (length_lastEight (h20 _)),
          List.cons_append, dart_format (length_lastEight (h20 _))]
        rfl
    · rw [if_neg h4, if_neg h4]
      by_cases h6 : version = 6
      · rw [if_pos h6, if_pos h6, i2osp_four, rust_format (length_lastEight (h32 _)),
          List.cons_append, dart_format (length_lastEight (h32 _))]
        rfl
      · rw [if_neg h6, if_neg h6]
        rfl

/-! ## Packets -/

theorem or_two (a b : UInt8) : a.toNat <<< 8 ||| b.toNat = os2ip [a, b] := by
  have hb := b.toNat_lt
  rw [← Nat.shiftLeft_add_eq_or_of_lt hb, Nat.shiftLeft_eq]
  simp [os2ip]

theorem or_four (a b c d : UInt8) :
    a.toNat <<< 24 ||| b.toNat <<< 16 ||| c.toNat <<< 8 ||| d.toNat = os2ip [a, b, c, d] := by
  have hb := b.toNat_lt
  have hc := c.toNat_lt
  have hd := d.toNat_lt
  have h1 : c.toNat <<< 8 ||| d.toNat = c.toNat * 256 + d.toNat := by
    rw [← Nat.shiftLeft_add_eq_or_of_lt hd, Nat.shiftLeft_eq]
  have h2 : b.toNat <<< 16 ||| (c.toNat * 256 + d.toNat) = b.toNat * 65536 +
      (c.toNat * 256 + d.toNat) := by
    rw [← Nat.shiftLeft_add_eq_or_of_lt (show c.toNat * 256 + d.toNat < 2 ^ 16 by omega),
        Nat.shiftLeft_eq]
  have h3 : a.toNat <<< 24 ||| (b.toNat * 65536 + (c.toNat * 256 + d.toNat)) =
      a.toNat * 16777216 + (b.toNat * 65536 + (c.toNat * 256 + d.toNat)) := by
    rw [← Nat.shiftLeft_add_eq_or_of_lt
      (show b.toNat * 65536 + (c.toNat * 256 + d.toNat) < 2 ^ 24 by omega), Nat.shiftLeft_eq]
  rw [Nat.or_assoc, Nat.or_assoc, h1, h2, h3]
  simp only [os2ip, List.foldl_cons, List.foldl_nil]
  omega

section
variable {data tail : List UInt8} {offset : Nat} {first : UInt8}

/-- An octet behind the one at `offset`. -/
theorem index_succ (ht : data.drop offset = first :: tail) (i : Nat) :
    index data (offset + (i + 1)) = match tail[i]? with
      | some b => ok b
      | .none => .fault := by
  rw [index, getElem?_drop_eq ht, List.getElem?_cons_succ]
  cases tail[i]? <;> rfl

theorem uint32At_eq (ht : data.drop offset = first :: tail) :
    Dart.uint32At data (offset + 1) = match numberAt 4 tail with
      | some (length, _) => ok length
      | .none => .fault := by
  have h1 := index_succ ht 0
  have h2 := index_succ ht 1
  have h3 := index_succ ht 2
  have h4 := index_succ ht 3
  unfold Dart.uint32At
  simp only [Nat.add_assoc] at *
  rw [h1, h2, h3, h4]
  match tail with
  | [] => rfl
  | [a] => rfl
  | [a, b] => rfl
  | [a, b, c] => rfl
  | a :: b :: c :: d :: rest => simp [numberAt, or_four]

theorem newLengthAt_eq (ht : data.drop offset = tail) :
    Dart.orNull (Dart.newLength data offset) = ofOption (newLengthAt tail) := by
  unfold Dart.newLength
  rw [index, show data[offset]? = tail[0]? from getElem?_drop_eq ht 0]
  cases tail with
  | nil => rfl
  | cons first rest =>
    simp only [List.getElem?_cons_zero, Outcome.ok_bind, newLengthAt]
    by_cases h192 : first < 192
    · rw [if_pos h192, if_pos h192]
      rfl
    by_cases h224 : first < 224
    · rw [if_neg h192, if_pos h224, if_neg h192, if_pos h224, index_succ ht 0]
      cases rest <;> rfl
    by_cases h255 : first = 255
    · rw [if_neg h192, if_neg h224, if_pos h255, if_neg h192, if_neg h224, if_pos h255,
          uint32At_eq ht]
      cases numberAt 4 rest <;> rfl
    · rw [if_neg h192, if_neg h224, if_neg h255, if_neg h192, if_neg h224, if_neg h255]
      rfl

theorem oldLengthAt_eq (ht : data.drop offset = first :: tail) (lenType : UInt8) :
    Dart.orNull (Dart.oldLength data offset lenType) = ofOption (oldLengthAt tail lenType) := by
  have h1 := index_succ ht 0
  have h2 := index_succ ht 1
  unfold Dart.oldLength
  split
  · unfold oldLengthAt
    rw [h1]
    rcases tail with _ | ⟨a, rest⟩
    · rfl
    · simp [numberAt, os2ip, Dart.orNull]
  · unfold oldLengthAt
    rw [h1, h2]
    rcases tail with _ | ⟨a, _ | ⟨b, rest⟩⟩
    · rfl
    · rfl
    · simp [numberAt, or_two, Dart.orNull]
  · unfold oldLengthAt
    rw [uint32At_eq ht]
    cases hn : numberAt 4 tail with
    | none => rfl
    | some p =>
      obtain ⟨length, size⟩ := p
      obtain ⟨rfl, -, -⟩ := numberAt_sound hn
      rfl
  · rename_i hne0 hne1 hne2
    unfold oldLengthAt
    split
    · exact (hne0 rfl).elim
    · exact (hne1 rfl).elim
    · exact (hne2 rfl).elim
    · rfl

theorem orNull_map {α β : Type} {x : Outcome α} {y : Option α} (h : Dart.orNull x = ofOption y)
    (g : α → β) : Dart.orNull (x >>= fun a => pure (g a)) = ofOption (y.map g) := by
  cases x <;> cases y <;> simp_all [Dart.orNull, ofOption]

theorem headerAt_eq (ht : data.drop offset = first :: tail) (h80 : ¬ first &&& 0x80 = 0) :
    Dart.orNull (Dart.header data offset first) = ofOption (headerAt first tail) := by
  have htail : data.drop (offset + 1) = tail := by
    rw [← List.drop_drop, ht, List.drop_one, List.tail_cons]
  unfold Dart.header headerAt
  rw [if_neg h80]
  by_cases h40 : first &&& 0x40 ≠ 0
  · rw [if_pos h40, if_pos h40]
    exact orNull_map (newLengthAt_eq htail) _
  · rw [if_neg h40, if_neg h40]
    exact orNull_map (oldLengthAt_eq ht _) _

end

theorem Dart.packetsTurn_eq (data : List UInt8) : Dart.packetsTurn data = turnAt data := by
  funext s
  obtain ⟨offset, out⟩ := s
  unfold Dart.packetsTurn turnAt
  dsimp only
  rcases drop_cases data offset with ⟨hle, ht⟩ | ⟨first, tail, hlt, ht⟩
  · rw [if_neg (by omega), ht]
    rfl
  · have hfirst : index data offset = ok first := by
      rw [index, show data[offset]? = (first :: tail)[0]? from getElem?_drop_eq ht 0]
      rfl
    rw [if_pos hlt, ht, hfirst, Outcome.ok_bind]
    dsimp only
    by_cases h80 : first &&& 0x80 = 0
    · rw [if_pos h80, headerAt, if_pos h80]
    · rw [if_neg h80, headerAt_eq ht h80]
      cases hh : headerAt first tail with
      | none => rfl
      | some p =>
        obtain ⟨tag, hdr, length⟩ := p
        simp only [ofOption_some, Outcome.ok_bind]
        by_cases hfit : offset + hdr + length ≤ data.length
        · rw [if_pos hfit, if_neg (by omega), slice_eq hfit, Outcome.ok_bind]
          rfl
        · rw [if_neg hfit, if_pos (by omega)]

/-- Both take a byte string apart alike. -/
theorem packets_eq {w : PointerWidth} (blob : Slice w) (fuel : Nat) :
    Dart.packets fuel blob.1 = Rust.packets w fuel blob.1 := by
  unfold Dart.packets Rust.packets
  rw [Dart.packetsTurn_eq, Rust.packetsTurn_eq]

/-! ## Subkeys -/

/-- A subkey body of a known version that ends before its algorithm. -/
def Short (body : List UInt8) : Prop :=
  (body.head? = some 4 ∨ body.head? = some 6) ∧ body.length ≤ 5

instance (body : List UInt8) : Decidable (Short body) := by
  unfold Short
  infer_instance

theorem eq_some (a b : List UInt8) : Dart.eq (some a) b = (a == b) := by
  induction a generalizing b with
  | nil => cases b <;> rfl
  | cons x a ih =>
    cases b with
    | nil => rfl
    | cons y b =>
      have hab := ih b
      simp only [Dart.eq, List.length_cons, List.zip_cons_cons, List.all_cons] at hab ⊢
      rw [List.cons_beq_cons, ← hab, show (a.length + 1 == b.length + 1) =
        (a.length == b.length) by simp, Bool.and_left_comm]

theorem oid_eq (body : List UInt8) (offset : Nat) :
    ∃ a, Dart.oid body offset = .ok a ∧ ∀ b, Dart.eq a b = Rust.oidEq body offset b := by
  unfold Dart.oid Rust.oidEq
  by_cases ho : body.length ≤ offset
  · rw [if_pos ho, List.getElem?_eq_none ho]
    exact ⟨.none, rfl, fun b => rfl⟩
  · rw [if_neg ho, index_eq (by omega), Outcome.ok_bind, List.getElem?_eq_getElem (by omega)]
    dsimp only
    generalize body[offset] = len
    by_cases hs : body.length < offset + 1 + len.toNat
    · rw [if_pos hs, getRange, if_neg (by omega)]
      exact ⟨.none, rfl, fun b => rfl⟩
    · rw [if_neg hs, slice, getRange, if_pos (by omega), Outcome.ok_bind]
      exact ⟨_, rfl, fun b => eq_some _ b⟩

theorem subkeyMatches_eq (body : List UInt8) (algorithm : String) :
    Dart.subkeyMatches body algorithm =
      if Short body then .fault else .ok (Rust.subkeyMatches body algorithm) := by
  unfold Dart.subkeyMatches Rust.subkeyMatches
  by_cases hv : body.head? ≠ some 4 ∧ body.head? ≠ some 6
  · have hshort : ¬ Short body := fun h => h.1.elim hv.1 hv.2
    rw [if_pos (.inr hv), if_neg hshort, if_pos hv]
  · have hne : body ≠ [] := by
      rintro rfl
      exact hv ⟨by simp, by simp⟩
    rw [if_neg (not_or.2 ⟨hne, hv⟩), if_neg hv]
    have hv' : body.head? = some 4 ∨ body.head? = some 6 := by
      rw [not_and_or, not_ne_iff, not_ne_iff] at hv
      exact hv
    by_cases hl : body.length ≤ 5
    · have hshort : Short body := ⟨hv', hl⟩
      rw [if_pos hshort, index, List.getElem?_eq_none hl]
      rfl
    · have hlong : ¬ Short body := fun h => hl h.2
      rw [if_neg hlong, index_eq (by omega), Outcome.ok_bind, List.getElem?_eq_getElem (by omega)]
      dsimp only
      generalize (if body.head? = some 6 then 10 else 6) = offset
      generalize body[5] = a
      obtain ⟨o, ho, heq⟩ := oid_eq body offset
      rw [ho]
      simp only [Outcome.ok_bind, heq]
      by_cases h25519 : algorithm = "openpgp-cv25519"
      · by_cases ha : a = 25
        · simp [h25519, ha]
        · by_cases ha' : a = 18 <;> simp [h25519, ha, ha']
      · by_cases h448 : algorithm = "openpgp-cv448"
        · by_cases ha : a = 26
          · simp [h448, ha]
          · by_cases ha' : a = 18 <;> simp [h448, ha, ha']
        · by_cases hml : algorithm = "openpgp-mlkem768-x25519" <;> simp [h25519, h448, hml]

/-- The first of the subkeys that is short or matches is short. -/
def MeetsShort (algorithm : String) (subs : List Packet) : Prop :=
  ∃ before k after, subs = before ++ k :: after ∧ Short k.body ∧
    ∀ q ∈ before, ¬ Short q.body ∧ Rust.subkeyMatches q.body algorithm = false

theorem meetsShort_cons {algorithm : String} {k : Packet} {subs : List Packet} :
    MeetsShort algorithm (k :: subs) ↔
      Short k.body ∨ (Rust.subkeyMatches k.body algorithm = false ∧ MeetsShort algorithm subs) := by
  constructor
  · intro h
    obtain ⟨before, q, after, he, hshort, hbefore⟩ := h
    cases before with
    | nil =>
      obtain ⟨rfl, rfl⟩ := List.cons.inj he
      exact .inl hshort
    | cons p before =>
      obtain ⟨rfl, rfl⟩ := List.cons.inj he
      exact .inr ⟨(hbefore k (by simp)).2, before, q, after, rfl, hshort,
        fun p hp => hbefore p (by simp [hp])⟩
  · intro h
    by_cases hk : Short k.body
    · exact ⟨[], k, subs, rfl, hk, by simp⟩
    · rcases h with h | ⟨hm, before, q, after, rfl, hshort, hbefore⟩
      · exact absurd h hk
      · refine ⟨k :: before, q, after, rfl, hshort, fun p hp => ?_⟩
        rcases List.mem_cons.1 hp with rfl | hp
        · exact ⟨hk, hm⟩
        · exact hbefore p hp

/-- The loop over the subkeys throws at a short one, and else it finds what Rust finds. -/
theorem findMatch_eq (algorithm : String) (subs : List Packet) :
    (MeetsShort algorithm subs → Dart.findMatch algorithm subs = .fault) ∧
      (¬ MeetsShort algorithm subs → Dart.findMatch algorithm subs =
        .ok (subs.find? fun k => Rust.subkeyMatches k.body algorithm)) := by
  induction subs with
  | nil =>
    refine ⟨fun h => ?_, fun _ => rfl⟩
    obtain ⟨before, k, after, he, -⟩ := h
    simp at he
  | cons k subs ih =>
    rw [meetsShort_cons, Dart.findMatch, subkeyMatches_eq]
    by_cases hk : Short k.body
    · rw [if_pos hk]
      exact ⟨fun _ => rfl, fun h => absurd (.inl hk) h⟩
    · rw [if_neg hk, Outcome.ok_bind, List.find?_cons]
      cases hm : Rust.subkeyMatches k.body algorithm with
      | true =>
        refine ⟨fun h => ?_, fun _ => rfl⟩
        rcases h with h | ⟨h, -⟩
        · exact absurd h hk
        · cases h
      | false =>
        refine ⟨fun h => ?_, fun h => ?_⟩
        · rcases h with h | ⟨-, h⟩
          · exact absurd h hk
          · exact ih.1 h
        · exact ih.2 fun hs => h (.inr ⟨rfl, hs⟩)

/-! ## Key ids -/

/-- The keys and the purpose take the loop over the subkeys to a short one. -/
def Throws (keys : List Packet) (purpose algorithm : Option String) : Prop :=
  2 ≤ keys.length ∧ isEncryption purpose = true ∧
    ∃ alg, algorithm = some alg ∧ MeetsShort alg (keys.filter fun k => k.tag == 14)

theorem selectBody_eq (first : Packet) (rest : List Packet) (purpose algorithm : Option String) :
    (Throws (first :: rest) purpose algorithm →
      Dart.selectBody first rest purpose algorithm = .fault) ∧
    (¬ Throws (first :: rest) purpose algorithm →
      Dart.selectBody first rest purpose algorithm =
          .ok (Rust.selectBody first rest purpose algorithm)) := by
  unfold Dart.selectBody Rust.selectBody Throws
  dsimp only
  by_cases h1 : (first :: rest).length = 1
  · -- a lone packet is chosen by both
    rw [if_pos h1, if_pos h1]
    exact ⟨fun h => by omega, fun _ => rfl⟩
  rw [if_neg h1, if_neg h1]
  have h2 : 2 ≤ (first :: rest).length := by
    rw [List.length_cons] at h1 ⊢
    omega
  generalize (first :: rest).filter (fun k => k.tag == 14) = subs
  cases he : isEncryption purpose with
  | false =>
    -- no encryption key is asked for, and the short body is never looked at
    refine ⟨fun h => by simp at h, fun _ => ?_⟩
    simp only [Bool.false_eq_true, if_false]
    cases List.find? (fun k => k.tag == 6) (first :: rest) <;> rfl
  | true =>
    rw [if_pos rfl, if_pos rfl]
    cases algorithm with
    | none =>
      refine ⟨fun h => ?_, fun _ => ?_⟩
      · obtain ⟨-, -, alg, ha, -⟩ := h
        cases ha
      · cases subs <;> rfl
    | some alg =>
      -- an algorithm is asked for: Dart reads one octet that a short body does not have
      have hfind := findMatch_eq alg subs
      refine ⟨fun h => ?_, fun h => ?_⟩
      · obtain ⟨-, -, a, ha, hs⟩ := h
        obtain rfl := Option.some.inj ha
        dsimp only
        rw [hfind.1 hs]
        rfl
      · have hs : ¬ MeetsShort alg subs := fun hs => h ⟨h2, rfl, alg, rfl, hs⟩
        dsimp only
        rw [hfind.2 hs, Outcome.ok_bind, Option.bind_some]
        cases List.find? (fun k => Rust.subkeyMatches k.body alg) subs with
        | none => cases subs <;> rfl
        | some k => rfl

theorem length_encodeUpper (bytes : List UInt8) :
    (Rust.encodeUpper bytes).length = 2 * bytes.length := by
  rw [Rust.encodeUpper, String.length_ofList, List.length_flatMap]
  induction bytes with
  | nil => rfl
  | cons b bytes ih =>
    simp only [List.map_cons, List.sum_cons, List.length_cons, List.length_nil] at ih ⊢
    omega

theorem format_length {bytes : List UInt8} {id : String} (h : Rust.format bytes = some id) :
    id.length = 16 := by
  unfold Rust.format at h
  split at h
  · cases h
  · rename_i hl
    obtain rfl := Option.some.inj h
    rw [length_encodeUpper]
    omega

theorem keyIdFromBody_length {D : Digests} {body : List UInt8} {id : String}
    (h : Rust.keyIdFromBody D body = some id) : id.length = 16 := by
  unfold Rust.keyIdFromBody at h
  split at h
  · cases h
  · split at h
    · split at h
      · cases h
      · exact format_length h
    · split at h
      · exact format_length h
      · cases h

/-- Rust derives a key id from any material: `openpgp_key_id` ends, and a digest has octets
enough. -/
theorem deriveFor_ok (D : Digests) (w : PointerWidth) (blob : Slice w)
    (purpose algorithm : Option String) :
    ∃ id, id.length = 16 ∧ Rust.deriveFor D w blob.1 purpose algorithm = .ok id := by
  obtain ⟨hfault, hspin, -⟩ := packets_iff_frames w blob (blob.1.length + 1) (by omega)
  have hformat : Rust.format (lastEight (D.sha256 blob.1).1) =
      some (Rust.encodeUpper (lastEight (D.sha256 blob.1).1)) :=
    rust_format (length_lastEight (by rw [(D.sha256 blob.1).2]; decide))
  have hfallback := format_length hformat
  unfold Rust.deriveFor Rust.openpgpKeyId
  rw [hformat]
  cases hp : Rust.packets w (blob.1.length + 1) blob.1 with
  | fault => exact absurd hp hfault
  | spin => exact absurd hp hspin
  | none => exact ⟨_, hfallback, rfl⟩
  | ok ps =>
    rw [Outcome.ok_bind]
    cases ps.filter isKey with
    | nil => exact ⟨_, hfallback, rfl⟩
    | cons first rest =>
      dsimp only
      cases hid : Rust.keyIdFromBody D (Rust.selectBody first rest purpose algorithm) with
      | none => exact ⟨_, hfallback, rfl⟩
      | some id => exact ⟨id, keyIdFromBody_length hid, rfl⟩

/-- Dart derives what Rust derives, if it does not throw at a subkey. -/
theorem derive_eq (D : Digests) {w : PointerWidth} (blob : Slice w)
    (purpose algorithm : Option String)
    (h : ∀ ps, Rust.packets w (blob.1.length + 1) blob.1 = .ok ps →
      ¬ Throws (ps.filter isKey) purpose algorithm) :
    Dart.derive D blob.1 purpose algorithm = Rust.deriveFor D w blob.1 purpose algorithm := by
  have hlen : (lastEight (D.sha256 blob.1).1).length = 8 :=
    length_lastEight (by rw [(D.sha256 blob.1).2]; decide)
  have hid : Dart.openPgpKeyId D blob.1 purpose algorithm =
      Rust.openpgpKeyId D w blob.1 purpose algorithm := by
    unfold Dart.openPgpKeyId Rust.openpgpKeyId
    rw [packets_eq]
    cases hp : Rust.packets w (blob.1.length + 1) blob.1 with
    | fault => rfl
    | spin => rfl
    | none => rfl
    | ok ps =>
      rw [Outcome.ok_bind, Outcome.ok_bind]
      have hps := h ps hp
      cases hkeys : ps.filter isKey with
      | nil => rfl
      | cons first rest =>
        rw [hkeys] at hps
        dsimp only
        rw [(selectBody_eq first rest purpose algorithm).2 hps, Outcome.ok_bind, keyIdFromBody_eq]
  unfold Dart.derive Rust.deriveFor
  rw [hid, dart_format hlen, rust_format hlen]

/-- Dart throws at a subkey that is too short. -/
theorem derive_throws (D : Digests) {w : PointerWidth} {blob : Slice w}
    {purpose algorithm : Option String}
    {ps : List Packet} (hp : Rust.packets w (blob.1.length + 1) blob.1 = .ok ps)
    (h : Throws (ps.filter isKey) purpose algorithm) :
    Dart.derive D blob.1 purpose algorithm = .fault := by
  unfold Dart.derive Dart.openPgpKeyId
  rw [packets_eq, hp, Outcome.ok_bind]
  cases hkeys : ps.filter isKey with
  | nil =>
    rw [hkeys] at h
    exact absurd h.1 (by simp)
  | cons first rest =>
    rw [hkeys] at h
    dsimp only
    rw [(selectBody_eq first rest purpose algorithm).1 h]
    rfl

/-- Both derive one key id of sixteen digits, from the body of the key that both select. -/
def KeyIdsAgree (D : Digests) (w : PointerWidth) (blob : List UInt8)
    (purpose algorithm : Option String) :
    Prop :=
  (∃ id, id.length = 16 ∧ Rust.deriveFor D w blob purpose algorithm = .ok id ∧
    Dart.derive D blob purpose algorithm = .ok id) ∧
  ∀ ps first rest, Rust.packets w (blob.length + 1) blob = .ok ps → ps.filter isKey =
      first :: rest →
    Dart.packets (blob.length + 1) blob = .ok ps ∧
      Dart.selectBody first rest purpose algorithm =
          .ok (Rust.selectBody first rest purpose algorithm)

/-- **Rust derives a key id from any material, and Dart derives the same one** exactly if there is
no truncated subkey on its way. -/
theorem keyIds_agree_iff (D : Digests) (w : PointerWidth) (blob : Slice w)
    (purpose algorithm : Option String) :
    (∃ id, id.length = 16 ∧ Rust.deriveFor D w blob.1 purpose algorithm = .ok id) ∧
      (KeyIdsAgree D w blob.1 purpose algorithm ↔
        ∀ frames : List Frame, blob.1 = frames.flatMap Frame.encode →
          ¬ Throws ((frames.map Frame.packet).filter isKey) purpose algorithm) := by
  have hok := deriveFor_ok D w blob purpose algorithm
  obtain ⟨-, -, hframes, -⟩ := packets_iff_frames w blob (blob.1.length + 1) (by omega)
  refine ⟨hok, fun h frames hb ht => ?_, fun h => ?_⟩
  · obtain ⟨⟨id, -, -, hdart⟩, -⟩ := h
    have hp := (hframes (frames.map Frame.packet)).2 ⟨frames, hb, rfl⟩
    rw [derive_throws D hp ht] at hdart
    cases hdart
  · have hps : ∀ ps, Rust.packets w (blob.1.length + 1) blob.1 = .ok ps →
        ¬ Throws (ps.filter isKey) purpose algorithm := by
      intro ps hp
      obtain ⟨frames, hb, rfl⟩ := (hframes ps).1 hp
      exact h frames hb
    refine ⟨?_, fun ps first rest hp hkeys => ?_⟩
    · obtain ⟨id, hl, hid⟩ := hok
      exact ⟨id, hl, hid, by rw [derive_eq D blob purpose algorithm hps, hid]⟩
    · have ht := hps ps hp
      rw [hkeys] at ht
      exact ⟨by rw [packets_eq, hp], (selectBody_eq first rest purpose algorithm).2 ht⟩

/-- A primary key and a subkey that each hold a version only. -/
def truncated : List UInt8 := [0xc6, 0x01, 0x04, 0xce, 0x01, 0x04]

/-- The digest of the only message that is hashed for `truncated`. -/
def truncatedDigests : Digests where
  sha1 := fun m =>
    if m = [0x99, 0x00, 0x01, 0x04] then
      ⟨[0x9b, 0xda, 0x26, 0x48, 0x85, 0x1c, 0x89, 0x4a, 0x02, 0xce, 0x41, 0x91, 0x2c,
        0x50, 0xba, 0xac, 0x82, 0xf1, 0x5f, 0x8c], rfl⟩
    else ⟨List.replicate 20 0, List.length_replicate⟩
  sha256 := fun _ => ⟨List.replicate 32 0, List.length_replicate⟩

theorem keyIds_differ :
    Rust.deriveFor truncatedDigests .w64 truncated (some "encryption") (some "openpgp-cv25519") =
        .ok "2C50BAAC82F15F8C" ∧
      Dart.derive truncatedDigests truncated (some "encryption")
          (some "openpgp-cv25519") = .fault := by
  constructor
  · decide +kernel
  · decide +kernel

end OpenPgp
