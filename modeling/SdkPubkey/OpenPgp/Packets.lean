import SdkPubkey.Lib.Framing
import SdkPubkey.Lib.Outcome

/-!
# OpenPGP packets

`packets` of `crates/discovery/src/scomm_key_id.rs` takes a byte string apart into packets.
`Frame.encode` is the framing that it reads: a header octet, with the format and the tag, the length
of the body, and the body.

* `packets_iff_frames`: `packets` always ends without a fault, and it accepts exactly the
  concatenations of frames, which determine their frames.
-/

namespace OpenPgp

open Lib Lib.Outcome

structure Packet where
  tag : UInt8
  body : List UInt8
deriving DecidableEq

/-! ## The code -/

namespace Rust

variable (w : PointerWidth)

/-- The length that starts at `offset`, and the size that it takes. -/
def newLength (data : List UInt8) (offset : Nat) : Outcome (Nat × Nat) := do
  let first ← ofOption data[offset]?
  if first < 192 then pure (first.toNat, 1)
  else if first < 224 then do
    let second ← ofOption data[← add w offset 1]?
    let high ← mul w (← sub first.toNat 192) 256
    pure (← add w (← add w high second.toNat) 192, 2)
  else if first = 255 then do
    let b ← ofOption (getRange data (← add w offset 1) (← add w offset 5))
    pure (os2ip b, 5)
  else .none

/-- The length of an old packet by the type in its header octet, and the size that it takes. -/
def oldLength (blob : List UInt8) (offset : Nat) (lenType : UInt8) : Outcome (Nat × Nat) :=
  match lenType with
  | 0 => do
    let b ← ofOption blob[← add w offset 1]?
    pure (b.toNat, 1)
  | 1 => do
    let b ← ofOption (getRange blob (← add w offset 1) (← add w offset 3))
    pure (os2ip b, 2)
  | 2 => do
    let b ← ofOption (getRange blob (← add w offset 1) (← add w offset 5))
    pure (os2ip b, 4)
  | _ => .none

/-- The tag, the size of the header and the length of the body of the packet at `offset`. -/
def header (blob : List UInt8) (offset : Nat) : Outcome (UInt8 × Nat × Nat) := do
  let first ← index blob offset
  if first &&& 0x80 = 0 then .none
  else if first &&& 0x40 ≠ 0 then do
    let (length, size) ← newLength w blob (← add w offset 1)
    pure (first &&& 0x3f, ← add w 1 size, length)
  else do
    let (length, size) ← oldLength w blob offset (first &&& 0x03)
    pure ((first &&& 0x3c) >>> 2, ← add w 1 size, length)

/-- A turn of the loop, from the offset and the packets before it. -/
def packetsTurn (blob : List UInt8) (s : Nat × List Packet) :
    Outcome ((Nat × List Packet) ⊕ List Packet) :=
  let (offset, out) := s
  if offset < blob.length then do
    let (tag, hdr, length) ← header w blob offset
    let start ← add w offset hdr
    let stop ← ofOption (checkedAdd w start length)
    if blob.length < stop then .none
    else do
      let body ← slice blob start stop
      pure (.inl (stop, out ++ [⟨tag, body⟩]))
  else pure (.inr out)

def packets (fuel : Nat) (blob : List UInt8) : Outcome (List Packet) :=
  loop (packetsTurn w blob) fuel (0, [])

end Rust

/-! ## Frames -/

/-- How a header gives the length: the old formats and the new ones, by the octets of the length. -/
inductive Format where
  | old1
  | old2
  | old4
  | new1
  | new2
  | new5
deriving DecidableEq

/-- The tags and the lengths that a format can give. -/
def Format.Fits (tag : UInt8) (length : Nat) : Format → Prop
  | old1 => tag < 16 ∧ length < 256 ^ 1
  | old2 => tag < 16 ∧ length < 256 ^ 2
  | old4 => tag < 16 ∧ length < 256 ^ 4
  | new1 => tag < 64 ∧ length < 192
  | new2 => tag < 64 ∧ 192 ≤ length ∧ length < 8384
  | new5 => tag < 64 ∧ length < 256 ^ 4

def oldOctet (tag lenType : UInt8) : UInt8 := (0x80 : UInt8) ||| (tag <<< 2) ||| lenType

def newOctet (tag : UInt8) : UInt8 := 0xc0 ||| tag

def Format.octet (tag : UInt8) : Format → UInt8
  | old1 => oldOctet tag 0
  | old2 => oldOctet tag 1
  | old4 => oldOctet tag 2
  | new1 | new2 | new5 => newOctet tag

def Format.lengthOctets (length : Nat) : Format → List UInt8
  | old1 => i2osp length 1
  | old2 => i2osp length 2
  | old4 => i2osp length 4
  | new1 => [UInt8.ofNat length]
  | new2 => [UInt8.ofNat ((length - 192) / 256 + 192), UInt8.ofNat ((length - 192) % 256)]
  | new5 => 255 :: i2osp length 4

def Format.header (tag : UInt8) (length : Nat) (format : Format) : List UInt8 :=
  format.octet tag :: format.lengthOctets length

structure Frame where
  format : Format
  tag : UInt8
  body : List UInt8
  fits : format.Fits tag body.length

def Frame.encode (f : Frame) : List UInt8 := f.format.header f.tag f.body.length ++ f.body

def Frame.packet (f : Frame) : Packet := ⟨f.tag, f.body⟩

/-! ## Header octets -/

theorem newOctet_bits (tag : UInt8) : tag < 64 →
    newOctet tag &&& 0x80 ≠ 0 ∧ newOctet tag &&& 0x40 ≠ 0 ∧ newOctet tag &&& 0x3f = tag := by
  revert tag
  apply uint8_all
  decide +kernel

theorem oldOctet_bits (tag : UInt8) : tag < 16 → ∀ t ∈ [(0 : UInt8), 1, 2],
    oldOctet tag t &&& 0x80 ≠ 0 ∧ oldOctet tag t &&& 0x40 = 0 ∧ oldOctet tag t &&& 0x03 = t ∧
      (oldOctet tag t &&& 0x3c) >>> 2 = tag := by
  revert tag
  apply uint8_all
  decide +kernel

theorem eq_newOctet (first : UInt8) : first &&& 0x80 ≠ 0 → first &&& 0x40 ≠ 0 →
    first = newOctet (first &&& 0x3f) ∧ first &&& 0x3f < 64 := by
  revert first
  apply uint8_all
  decide +kernel

theorem eq_oldOctet (first : UInt8) : first &&& 0x80 ≠ 0 → first &&& 0x40 = 0 →
    first = oldOctet ((first &&& 0x3c) >>> 2) (first &&& 0x03) ∧ (first &&& 0x3c) >>> 2 < 16 := by
  revert first
  apply uint8_all
  decide +kernel

/-! ## Lengths -/

/-- A number of `size` octets. -/
def numberAt (size : Nat) (tail : List UInt8) : Option (Nat × Nat) :=
  if size ≤ tail.length then some (os2ip (tail.take size), size) else none

/-- The lengths by the octets that they are read from. -/
def newLengthAt : List UInt8 → Option (Nat × Nat)
  | [] => none
  | first :: tail =>
    if first < 192 then some (first.toNat, 1)
    else if first < 224 then
      tail.head?.map fun second => ((first.toNat - 192) * 256 + second.toNat + 192, 2)
    else if first = 255 then (numberAt 4 tail).map fun (length, _) => (length, 5)
    else none

def oldLengthAt (tail : List UInt8) (lenType : UInt8) : Option (Nat × Nat) :=
  match lenType with
  | 0 => numberAt 1 tail
  | 1 => numberAt 2 tail
  | 2 => numberAt 4 tail
  | _ => none

/-- The header by its octet and the octets behind it. -/
def headerAt (first : UInt8) (tail : List UInt8) : Option (UInt8 × Nat × Nat) :=
  if first &&& 0x80 = 0 then none
  else if first &&& 0x40 ≠ 0 then
    (newLengthAt tail).map fun (length, size) => (first &&& 0x3f, 1 + size, length)
  else
    (oldLengthAt tail (first &&& 0x03)).map fun (length, size) =>
      ((first &&& 0x3c) >>> 2, 1 + size, length)

section
variable {w : PointerWidth} {blob tail : List UInt8} {offset : Nat}

theorem getRange_drop (xs : List UInt8) (start size : Nat) (h : start ≤ xs.length) :
    getRange xs start (start + size) =
      if size ≤ (xs.drop start).length then some ((xs.drop start).take size) else none := by
  unfold getRange
  rw [List.length_drop, List.drop_take, Nat.add_sub_cancel_left]
  by_cases hs : start + size ≤ xs.length
  · rw [if_pos ⟨by omega, hs⟩, if_pos (by omega)]
  · rw [if_neg (fun h => hs h.2), if_neg (by omega)]

/-- A number behind the octet at `offset`. -/
theorem getRange_number {first : UInt8} (ht : blob.drop offset = first :: tail) (size : Nat) :
    (getRange blob (offset + 1) (offset + 1 + size)).map (fun b => (os2ip b, size)) =
      numberAt size tail := by
  have hlen := congrArg List.length ht
  rw [List.length_drop, List.length_cons] at hlen
  have htail : blob.drop (offset + 1) = tail := by
    rw [← List.drop_drop, ht, List.drop_one, List.tail_cons]
  rw [getRange_drop blob (offset + 1) size (by omega), htail]
  unfold numberAt
  split <;> rfl

theorem newLength_eq (ht : blob.drop offset = tail) (hb : blob.length + 6 < 2 ^ w.bits) :
    Rust.newLength w blob offset = ofOption (newLengthAt tail) := by
  unfold Rust.newLength
  rw [show blob[offset]? = tail[0]? from getElem?_drop_eq ht 0]
  cases tail with
  | nil => rfl
  | cons first rest =>
    have hlen := congrArg List.length ht
    rw [List.length_drop, List.length_cons] at hlen
    have hadd : ∀ k, k ≤ 5 → add w offset k = ok (offset + k) := fun k hk => add_eq (by omega)
    simp only [List.getElem?_cons_zero, ofOption_some, Outcome.ok_bind, newLengthAt]
    by_cases h192 : first < 192
    · rw [if_pos h192, if_pos h192]
      rfl
    by_cases h224 : first < 224
    · rw [if_neg h192, if_pos h224, if_neg h192, if_pos h224, hadd 1 (by omega), Outcome.ok_bind,
        getElem?_drop_eq ht 1]
      cases rest with
      | nil => rfl
      | cons second rest =>
        have hsecond := second.toNat_lt
        have hge : 192 ≤ first.toNat := Nat.not_lt.1 h192
        have hlt : first.toNat < 224 := h224
        have hbits := Outcome.lt_bits w (n := 8384) (by decide)
        simp only [List.getElem?_cons_succ, List.getElem?_cons_zero, ofOption_some, Outcome.ok_bind,
          sub_eq hge, List.head?_cons, Option.map_some]
        rw [mul_eq (by omega), Outcome.ok_bind, add_eq (by omega), Outcome.ok_bind,
            add_eq (by omega)]
        rfl
    by_cases h255 : first = 255
    · rw [if_neg h192, if_neg h224, if_pos h255, if_neg h192, if_neg h224, if_pos h255,
        hadd 1 (by omega), Outcome.ok_bind, hadd 5 (by omega), Outcome.ok_bind,
            ← getRange_number ht 4]
      cases getRange blob (offset + 1) (offset + 1 + 4) <;> rfl
    · rw [if_neg h192, if_neg h224, if_neg h255, if_neg h192, if_neg h224, if_neg h255]
      rfl

theorem oldLength_eq {first : UInt8} (ht : blob.drop offset = first :: tail)
    (hb : blob.length + 6 < 2 ^ w.bits) (lenType : UInt8) :
    Rust.oldLength w blob offset lenType = ofOption (oldLengthAt tail lenType) := by
  have hlen := congrArg List.length ht
  rw [List.length_drop, List.length_cons] at hlen
  have hadd : ∀ k, k ≤ 5 → add w offset k = ok (offset + k) := fun k hk => add_eq (by omega)
  unfold Rust.oldLength oldLengthAt
  split
  · rw [hadd 1 (by omega), Outcome.ok_bind, getElem?_drop_eq ht 1, List.getElem?_cons_succ]
    cases tail with
    | nil => rfl
    | cons b tail => simp [numberAt, os2ip]
  · rw [hadd 1 (by omega), Outcome.ok_bind, hadd 3 (by omega), Outcome.ok_bind,
        ← getRange_number ht 2]
    cases getRange blob (offset + 1) (offset + 1 + 2) <;> rfl
  · rw [hadd 1 (by omega), Outcome.ok_bind, hadd 5 (by omega), Outcome.ok_bind,
        ← getRange_number ht 4]
    cases getRange blob (offset + 1) (offset + 1 + 4) <;> rfl
  · rfl

end

/-! ## What lengths are read -/

section
variable {tail : List UInt8} {length size : Nat}

theorem numberAt_sound (h : numberAt size tail = some (length, n)) :
    n = size ∧ length < 256 ^ size ∧ tail = i2osp length size ++ tail.drop size := by
  unfold numberAt at h
  split at h
  · rename_i hs
    obtain ⟨rfl, rfl⟩ := Prod.mk.inj (Option.some.inj h)
    have hl : (tail.take size).length = size := List.length_take_of_le hs
    have hlt := os2ip_lt (tail.take size)
    have hi := i2osp_os2ip (tail.take size)
    rw [hl] at hlt hi
    exact ⟨rfl, hlt, by rw [hi, List.take_append_drop]⟩
  · cases h

theorem numberAt_complete (hl : length < 256 ^ size) (rest : List UInt8) :
    numberAt size (i2osp length size ++ rest) = some (length, size) := by
  have hi := i2osp_length length size
  unfold numberAt
  rw [if_pos (by rw [List.length_append, hi]; omega), List.take_left' hi, os2ip_i2osp,
    Nat.mod_eq_of_lt hl]

theorem newLengthAt_sound (h : newLengthAt tail = some (length, size)) :
    ∃ format : Format, (∀ tag, tag < 64 → format.Fits tag length ∧ format.octet tag =
        newOctet tag) ∧
      tail = format.lengthOctets length ++ tail.drop size ∧
        (format.lengthOctets length).length = size := by
  cases tail with
  | nil => cases h
  | cons first rest =>
    simp only [newLengthAt] at h
    by_cases h192 : first < 192
    · rw [if_pos h192] at h
      obtain ⟨rfl, rfl⟩ := Prod.mk.inj (Option.some.inj h)
      refine ⟨.new1, fun tag ht => ⟨⟨ht, h192⟩, rfl⟩, ?_, rfl⟩
      simp [Format.lengthOctets]
    by_cases h224 : first < 224
    · rw [if_neg h192, if_pos h224] at h
      cases rest with
      | nil => cases h
      | cons second rest =>
        obtain ⟨rfl, rfl⟩ := Prod.mk.inj (Option.some.inj h)
        -- two octets name the lengths from 192 to 8383
        have hsecond := second.toNat_lt
        have hge : 192 ≤ first.toNat := Nat.not_lt.1 h192
        have hlt : first.toNat < 224 := h224
        have hdiv : ((first.toNat - 192) * 256 + second.toNat + 192 - 192) / 256 + 192 =
            first.toNat := by
          omega
        have hmod : ((first.toNat - 192) * 256 + second.toNat + 192 - 192) % 256 =
            second.toNat := by
          omega
        refine ⟨.new2, fun tag ht => ⟨⟨ht, by omega, by omega⟩, rfl⟩, ?_, rfl⟩
        rw [Format.lengthOctets, hdiv, hmod, UInt8.ofNat_toNat, UInt8.ofNat_toNat]
        rfl
    by_cases h255 : first = 255
    · rw [if_neg h192, if_neg h224, if_pos h255] at h
      obtain ⟨⟨l, n⟩, hn, he⟩ := Option.map_eq_some_iff.1 h
      obtain ⟨rfl, rfl⟩ := Prod.mk.inj he
      obtain ⟨-, hl, hrest⟩ := numberAt_sound hn
      refine ⟨.new5, fun tag ht => ⟨⟨ht, hl⟩, rfl⟩, ?_, by simp [Format.lengthOctets, i2osp_length]⟩
      rw [h255, Format.lengthOctets, List.cons_append, List.drop_succ_cons, ← hrest]
    · rw [if_neg h192, if_neg h224, if_neg h255] at h
      cases h

theorem oldLengthAt_sound {lenType : UInt8} (h : oldLengthAt tail lenType = some (length, size)) :
    ∃ format : Format,
      (∀ tag, tag < 16 → format.Fits tag length ∧ format.octet tag = oldOctet tag lenType) ∧
        tail = format.lengthOctets length ++ tail.drop size ∧
          (format.lengthOctets length).length = size := by
  unfold oldLengthAt at h
  split at h
  · obtain ⟨rfl, hl, hrest⟩ := numberAt_sound h
    exact ⟨.old1, fun tag ht => ⟨⟨ht, hl⟩, rfl⟩, hrest, i2osp_length _ _⟩
  · obtain ⟨rfl, hl, hrest⟩ := numberAt_sound h
    exact ⟨.old2, fun tag ht => ⟨⟨ht, hl⟩, rfl⟩, hrest, i2osp_length _ _⟩
  · obtain ⟨rfl, hl, hrest⟩ := numberAt_sound h
    exact ⟨.old4, fun tag ht => ⟨⟨ht, hl⟩, rfl⟩, hrest, i2osp_length _ _⟩
  · cases h

end

section
variable {tail : List UInt8} {tag first : UInt8} {length size : Nat}

/-- A header that is read is one of the six. -/
theorem headerAt_sound (h : headerAt first tail = some (tag, size, length)) :
    ∃ format : Format, format.Fits tag length ∧
      first :: tail = format.header tag length ++ (first :: tail).drop size ∧
        (format.header tag length).length = size := by
  unfold headerAt at h
  by_cases h80 : first &&& 0x80 = 0
  · rw [if_pos h80] at h
    cases h
  by_cases h40 : first &&& 0x40 ≠ 0
  · rw [if_neg h80, if_pos h40] at h
    obtain ⟨⟨l, n⟩, hn, he⟩ := Option.map_eq_some_iff.1 h
    simp only [Prod.mk.injEq] at he
    obtain ⟨rfl, rfl, rfl⟩ := he
    obtain ⟨format, hfits, htail, hsize⟩ := newLengthAt_sound hn
    obtain ⟨hfirst, htag⟩ := eq_newOctet first h80 h40
    obtain ⟨hf, hoctet⟩ := hfits _ htag
    refine ⟨format, hf, ?_, by rw [Format.header, List.length_cons, hsize]; omega⟩
    rw [Nat.add_comm 1 n, List.drop_succ_cons, Format.header, List.cons_append, ← htail,
        hoctet, ← hfirst]
  · rw [if_neg h80, if_neg h40] at h
    rw [ne_eq, not_not] at h40
    obtain ⟨⟨l, n⟩, hn, he⟩ := Option.map_eq_some_iff.1 h
    simp only [Prod.mk.injEq] at he
    obtain ⟨rfl, rfl, rfl⟩ := he
    obtain ⟨format, hfits, htail, hsize⟩ := oldLengthAt_sound hn
    obtain ⟨hfirst, htag⟩ := eq_oldOctet first h80 h40
    obtain ⟨hf, hoctet⟩ := hfits _ htag
    refine ⟨format, hf, ?_, by rw [Format.header, List.length_cons, hsize]; omega⟩
    rw [Nat.add_comm 1 n, List.drop_succ_cons, Format.header, List.cons_append, ← htail,
        hoctet, ← hfirst]

theorem headerAt_new (ht : tag < 64) :
    headerAt (newOctet tag) tail =
      (newLengthAt tail).map fun (length, size) => (tag, 1 + size, length) := by
  obtain ⟨h80, h40, htag⟩ := newOctet_bits tag ht
  unfold headerAt
  rw [if_neg h80, if_pos h40, htag]

theorem headerAt_old (ht : tag < 16) {lenType : UInt8} (hl : lenType ∈ [(0 : UInt8), 1, 2]) :
    headerAt (oldOctet tag lenType) tail =
      (oldLengthAt tail lenType).map fun (length, size) => (tag, 1 + size, length) := by
  obtain ⟨h80, h40, htype, htag⟩ := oldOctet_bits tag ht lenType hl
  unfold headerAt
  rw [if_neg h80, if_neg (not_not.2 h40), htype, htag]

/-- Each of the six headers is read. -/
theorem headerAt_complete {format : Format} (hf : format.Fits tag length) (rest : List UInt8) :
    headerAt (format.octet tag) (format.lengthOctets length ++ rest) =
      some (tag, (format.header tag length).length, length) := by
  have hsize : (format.header tag length).length = 1 + (format.lengthOctets length).length := by
    rw [Format.header, List.length_cons, Nat.add_comm]
  rw [hsize]
  cases format with
  | old1 =>
    rw [Format.octet, headerAt_old hf.1 (by simp), Format.lengthOctets,
      show oldLengthAt _ 0 = numberAt 1 _ from rfl, numberAt_complete hf.2, i2osp_length]
    rfl
  | old2 =>
    rw [Format.octet, headerAt_old hf.1 (by simp), Format.lengthOctets,
      show oldLengthAt _ 1 = numberAt 2 _ from rfl, numberAt_complete hf.2, i2osp_length]
    rfl
  | old4 =>
    rw [Format.octet, headerAt_old hf.1 (by simp), Format.lengthOctets,
      show oldLengthAt _ 2 = numberAt 4 _ from rfl, numberAt_complete hf.2, i2osp_length]
    rfl
  | new1 =>
    have hl : length < 192 := hf.2
    -- the first octet alone tells the three new lengths apart, at 192 and 224
    have hof : (UInt8.ofNat length).toNat = length := by
      rw [UInt8.toNat_ofNat']
      omega
    have h192 : UInt8.ofNat length < 192 := by
      rw [UInt8.lt_iff_toNat_lt, hof]
      exact hl
    rw [Format.octet, headerAt_new hf.1, Format.lengthOctets, List.singleton_append, newLengthAt,
      if_pos h192, hof]
    rfl
  | new2 =>
    have hge : 192 ≤ length := hf.2.1
    have hlt : length < 8384 := hf.2.2
    have hof : (UInt8.ofNat ((length - 192) / 256 + 192)).toNat = (length - 192) / 256 + 192 := by
      rw [UInt8.toNat_ofNat']
      omega
    have hof' : (UInt8.ofNat ((length - 192) % 256)).toNat = (length - 192) % 256 := by
      rw [UInt8.toNat_ofNat']
      omega
    have h192 : ¬ UInt8.ofNat ((length - 192) / 256 + 192) < 192 := by
      rw [UInt8.lt_iff_toNat_lt, hof]
      exact Nat.not_lt.2 (Nat.le_add_left _ _)
    have h224 : UInt8.ofNat ((length - 192) / 256 + 192) < 224 := by
      rw [UInt8.lt_iff_toNat_lt, hof]
      show (length - 192) / 256 + 192 < 224
      omega
    have hsum : ((length - 192) / 256 + 192 - 192) * 256 + (length - 192) % 256 + 192 = length := by
      omega
    rw [Format.octet, headerAt_new hf.1, Format.lengthOctets, List.cons_append,
      List.singleton_append, newLengthAt, if_neg h192, if_pos h224, List.head?_cons,
      Option.map_some, hof, hof', hsum]
    rfl
  | new5 =>
    rw [Format.octet, headerAt_new hf.1, Format.lengthOctets, List.cons_append, newLengthAt,
      if_neg (by decide), if_neg (by decide), if_pos rfl, numberAt_complete hf.2, List.length_cons,
      i2osp_length]
    rfl

end

theorem lengthOctets_le (format : Format) (length : Nat) :
    (format.lengthOctets length).length ≤ 5 := by
  cases format <;> simp [Format.lengthOctets, i2osp_length]

/-- The code reads the header by the octets from `offset` on. -/
theorem header_eq {w : PointerWidth} {blob tail : List UInt8} {offset : Nat} {first : UInt8}
    (ht : blob.drop offset = first :: tail) (hb : blob.length + 6 < 2 ^ w.bits) :
    Rust.header w blob offset = ofOption (headerAt first tail) := by
  have hlen := congrArg List.length ht
  rw [List.length_drop, List.length_cons] at hlen
  have htail : blob.drop (offset + 1) = tail := by
    rw [← List.drop_drop, ht, List.drop_one, List.tail_cons]
  have hfirst : index blob offset = ok first := by
    rw [index, show blob[offset]? = (first :: tail)[0]? from getElem?_drop_eq ht 0]
    rfl
  have hbits := Outcome.lt_bits w (n := 7) (by decide)
  unfold Rust.header headerAt
  rw [hfirst, Outcome.ok_bind]
  by_cases h80 : first &&& 0x80 = 0
  · rw [if_pos h80, if_pos h80]
    rfl
  by_cases h40 : first &&& 0x40 ≠ 0
  · rw [if_neg h80, if_pos h40, if_neg h80, if_pos h40, add_eq (by omega), Outcome.ok_bind,
      newLength_eq htail hb]
    cases hn : newLengthAt tail with
    | none => rfl
    | some p =>
      obtain ⟨length, size⟩ := p
      obtain ⟨format, -, -, hsize⟩ := newLengthAt_sound hn
      have hle := lengthOctets_le format length
      simp only [ofOption_some, Outcome.ok_bind, Option.map_some]
      rw [add_eq (by omega)]
      rfl
  · rw [if_neg h80, if_neg h40, if_neg h80, if_neg h40, oldLength_eq ht hb]
    cases hn : oldLengthAt tail (first &&& 0x03) with
    | none => rfl
    | some p =>
      obtain ⟨length, size⟩ := p
      obtain ⟨format, -, -, hsize⟩ := oldLengthAt_sound hn
      have hle := lengthOctets_le format length
      simp only [ofOption_some, Outcome.ok_bind, Option.map_some]
      rw [add_eq (by omega)]
      rfl

/-! ## Frames one after another -/

theorem Frame.encode_eq (f : Frame) (rest : List UInt8) :
    f.encode ++ rest =
      f.format.octet f.tag :: (f.format.lengthOctets f.body.length ++ (f.body ++ rest)) := by
  simp [Frame.encode, Format.header]

theorem Frame.encode_ne_nil (f : Frame) : f.encode ≠ [] := by
  intro h
  have he := f.encode_eq []
  rw [h] at he
  cases he

theorem Frame.headerAt_encode (f : Frame) {first : UInt8} {tail rest : List UInt8}
    (h : first :: tail = f.encode ++ rest) :
    headerAt first tail = some (f.tag, (f.format.header f.tag f.body.length).length,
        f.body.length) := by
  rw [f.encode_eq] at h
  obtain ⟨rfl, rfl⟩ := List.cons.inj h
  exact headerAt_complete f.fits _

theorem format_inj {format format' : Format} {tag : UInt8} {length : Nat}
    (hf : format.Fits tag length)
    (hf' : format'.Fits tag length) (h : format.header tag length = format'.header tag length) :
    format = format' := by
  have hoctet : format.octet tag = format'.octet tag := (List.cons.inj h).1
  have hsize := congrArg List.length h
  have hnew : ∀ t ∈ [(0 : UInt8), 1, 2], tag < 16 → tag < 64 → oldOctet tag t ≠ newOctet tag := by
    intro t ht h16 h64 he
    have hold := (oldOctet_bits tag h16 t ht).2.1
    rw [he] at hold
    exact (newOctet_bits tag h64).2.1 hold
  cases format <;> cases format' <;>
    simp only [Format.header, Format.lengthOctets, List.length_cons, List.length_nil,
        i2osp_length] at hsize <;>
    first
    | rfl
    | omega
    | exact absurd hoctet (hnew _ (by simp) hf.1 hf'.1)
    | exact absurd hoctet.symm (hnew _ (by simp) hf'.1 hf.1)

/-- Frames tell where they end. -/
theorem Frame.cut {f g : Frame} {s t : List UInt8} (h : f.encode ++ s = g.encode ++ t) :
    f = g ∧ s = t := by
  have hf := f.headerAt_encode (f.encode_eq s).symm
  have hg := g.headerAt_encode ((f.encode_eq s).symm.trans h)
  have he := Option.some.inj (hf.symm.trans hg)
  simp only [Prod.mk.injEq] at he
  obtain ⟨htag, hsize, hlength⟩ := he
  have hl : f.encode.length = g.encode.length := by
    rw [Frame.encode, Frame.encode, List.length_append, List.length_append, hsize, hlength]
  obtain ⟨henc, hst⟩ := List.append_inj h hl
  obtain ⟨hheader, hbody⟩ := List.append_inj henc hsize
  refine ⟨?_, hst⟩
  obtain ⟨format, tag, body, fits⟩ := f
  obtain ⟨format', tag', body', fits'⟩ := g
  dsimp only at htag hbody hheader
  subst htag hbody
  obtain rfl := format_inj fits fits' hheader
  rfl

theorem frames_inj {frames frames' : List Frame}
    (h : frames.flatMap Frame.encode = frames'.flatMap Frame.encode) : frames = frames' :=
  flatMap_inj (P := fun _ => True) Frame.encode_ne_nil (fun _ _ => Frame.cut) (fun _ _ => trivial)
    (fun _ _ => trivial) h

/-! ## The loop -/

/-- A turn of the loop by the octets from the offset on. -/
def turnAt (blob : List UInt8) (s : Nat × List Packet) :
    Outcome ((Nat × List Packet) ⊕ List Packet) :=
  match blob.drop s.1 with
  | [] => ok (.inr s.2)
  | first :: tail =>
    match headerAt first tail with
    | .none => .none
    | some (tag, hdr, length) =>
      if s.1 + hdr + length ≤ blob.length then
        ok (.inl (s.1 + hdr + length, s.2 ++ [⟨tag, (blob.drop (s.1 + hdr)).take length⟩]))
      else .none

theorem slice_eq {xs : List UInt8} {start size : Nat} (h : start + size ≤ xs.length) :
    slice xs start (start + size) = ok ((xs.drop start).take size) := by
  rw [slice, getRange_drop xs start size (by omega), if_pos]
  rw [List.length_drop]
  omega

/-- The room that a header takes where it is read. -/
theorem headerAt_room {blob tail : List UInt8} {offset hdr length : Nat} {first tag : UInt8}
    (ht : blob.drop offset = first :: tail) (h : headerAt first tail = some (tag, hdr, length)) :
    0 < hdr ∧ offset + hdr ≤ blob.length := by
  obtain ⟨format, -, hsplit, hhdr⟩ := headerAt_sound h
  have hlen := congrArg List.length ht
  have hroom := congrArg List.length hsplit
  rw [List.length_append, hhdr, List.length_drop, List.length_cons] at hroom
  rw [List.length_drop, List.length_cons] at hlen
  rw [Format.header, List.length_cons] at hhdr
  omega

theorem Rust.packetsTurn_eq {w : PointerWidth} (blob : Slice w) :
    Rust.packetsTurn w blob.1 = turnAt blob.1 := by
  funext s
  obtain ⟨offset, out⟩ := s
  have hb : blob.1.length + 6 < 2 ^ w.bits := by
    have hmem := blob.2
    cases w with
    | w32 => simp only [PointerWidth.bits] at *; omega
    | w64 => simp only [PointerWidth.bits] at *; omega
  unfold Rust.packetsTurn turnAt
  dsimp only
  rcases drop_cases blob.1 offset with ⟨hle, ht⟩ | ⟨first, tail, hlt, ht⟩
  · rw [if_neg (by omega), ht]
    rfl
  · rw [if_pos hlt, header_eq ht hb, ht]
    dsimp only
    cases hh : headerAt first tail with
    | none => rfl
    | some p =>
      obtain ⟨tag, hdr, length⟩ := p
      have hroom := (headerAt_room ht hh).2
      simp only [ofOption_some, Outcome.ok_bind]
      rw [add_eq (by omega), Outcome.ok_bind]
      by_cases hfit : offset + hdr + length ≤ blob.1.length
      · have hadd : checkedAdd w (offset + hdr) length = some (offset + hdr + length) :=
          if_pos (by omega)
        rw [if_pos hfit, hadd, ofOption_some, Outcome.ok_bind, if_neg (by omega), slice_eq hfit,
            Outcome.ok_bind]
        rfl
      · rw [if_neg hfit]
        cases hadd : checkedAdd w (offset + hdr) length with
        | none => rfl
        | some stop =>
          have hstop : stop = offset + hdr + length := by
            unfold checkedAdd at hadd
            split at hadd
            · exact (Option.some.inj hadd).symm
            · cases hadd
          rw [ofOption_some, Outcome.ok_bind, if_pos (by omega)]

/-- What the loop returns from an offset on, with the packets before it. -/
def Splits (blob : List UInt8) (s : Nat × List Packet) (r : Outcome (List Packet)) : Prop :=
  r ≠ .fault ∧ r ≠ .spin ∧ ∀ ps, r = .ok ps ↔
    ∃ frames : List Frame, blob.drop s.1 = frames.flatMap Frame.encode ∧
      ps = s.2 ++ frames.map Frame.packet

theorem splits_none {blob : List UInt8} {s : Nat × List Packet}
    (h : ∀ frames : List Frame, blob.drop s.1 ≠ frames.flatMap Frame.encode) :
    Splits blob s .none := by
  refine ⟨by simp, by simp, fun ps => ?_⟩
  constructor
  · intro hr
    cases hr
  · intro hr
    obtain ⟨frames, hd, -⟩ := hr
    exact absurd hd (h frames)

/-- Frames from an octet on: the first of them. -/
theorem frames_cons {first : UInt8} {tail : List UInt8} {frames : List Frame}
    (h : first :: tail = frames.flatMap Frame.encode) :
    ∃ f fs, frames = f :: fs ∧ first :: tail = f.encode ++ fs.flatMap Frame.encode ∧
      headerAt first tail =
        some (f.tag, (f.format.header f.tag f.body.length).length, f.body.length) := by
  cases frames with
  | nil => cases h
  | cons f fs =>
    rw [List.flatMap_cons] at h
    exact ⟨f, fs, rfl, h, f.headerAt_encode h⟩

theorem turnAt_meets (blob : List UInt8) (s : Nat × List Packet) :
    TurnMeets (fun _ => True) (fun s => blob.length - s.1) (Splits blob) s (turnAt blob s) := by
  obtain ⟨offset, out⟩ := s
  unfold turnAt
  dsimp only
  rcases drop_cases blob offset with ⟨hle, ht⟩ | ⟨first, tail, hlt, ht⟩
  · rw [ht]
    refine ⟨by simp, by simp, fun ps => ?_⟩
    dsimp only
    rw [ht]
    constructor
    · intro h
      obtain rfl := Outcome.ok.inj h
      exact ⟨[], rfl, by simp⟩
    · intro h
      obtain ⟨frames, hd, rfl⟩ := h
      cases frames with
      | nil => simp
      | cons f fs =>
        rw [List.flatMap_cons] at hd
        exact absurd (List.append_eq_nil_iff.1 hd.symm).1 f.encode_ne_nil
  · rw [ht]
    dsimp only
    cases hh : headerAt first tail with
    | none =>
      refine splits_none fun frames hd => ?_
      obtain ⟨f, fs, -, -, hf⟩ := frames_cons (ht.symm.trans hd)
      rw [hh] at hf
      cases hf
    | some p =>
      obtain ⟨tag, hdr, length⟩ := p
      obtain ⟨hpos, hroom⟩ := headerAt_room ht hh
      obtain ⟨format, hfits, hsplit, hhdr⟩ := headerAt_sound hh
      have hlen := congrArg List.length ht
      rw [List.length_drop] at hlen
      dsimp only
      by_cases hfit : offset + hdr + length ≤ blob.length
      · rw [if_pos hfit]
        generalize hbody : (blob.drop (offset + hdr)).take length = body
        have hl : body.length = length := by
          rw [← hbody, List.length_take, List.length_drop]
          omega
        let f : Frame := ⟨format, tag, body, by rw [hl]; exact hfits⟩
        have hcons : blob.drop offset = f.encode ++ blob.drop (offset + hdr + length) := by
          have hstart : blob.drop (offset + hdr) = (first :: tail).drop hdr := by
            rw [← ht, List.drop_drop]
          have hdrop := (List.drop_drop (i := length) (j := offset + hdr) (l := blob)).symm
          have hrest : blob.drop (offset + hdr) = body ++ blob.drop (offset + hdr + length) := by
            rw [← hbody, hdrop, List.take_append_drop]
          rw [ht, hsplit, ← hstart, hrest, Frame.encode, List.append_assoc]
          simp only [f, hl]
        refine ⟨trivial, by dsimp only; omega, fun r hr => ⟨hr.1, hr.2.1, fun ps => ?_⟩⟩
        rw [hr.2.2 ps]
        dsimp only
        constructor
        · intro h
          obtain ⟨frames, hd, rfl⟩ := h
          refine ⟨f :: frames, by rw [hcons, hd, List.flatMap_cons], ?_⟩
          rw [List.map_cons, List.append_assoc]
          rfl
        · intro h
          obtain ⟨frames, hd, rfl⟩ := h
          obtain ⟨g, fs, rfl, he, -⟩ := frames_cons (ht.symm.trans hd)
          obtain ⟨rfl, hrest⟩ := Frame.cut (hcons.symm.trans (ht.trans he))
          refine ⟨fs, hrest, ?_⟩
          rw [List.map_cons, List.append_assoc]
          rfl
      · rw [if_neg hfit]
        refine splits_none fun frames hd => hfit ?_
        -- a frame here has the header that was read, so its body ends where the code looks
        obtain ⟨f, fs, -, he, hf⟩ := frames_cons (ht.symm.trans hd)
        have heq := Option.some.inj (hh.symm.trans hf)
        simp only [Prod.mk.injEq] at heq
        obtain ⟨-, hsize, hbody⟩ := heq
        have hle := congrArg List.length he
        rw [List.length_append, Frame.encode, List.length_append, ← hsize, ← hbody] at hle
        omega

theorem turnAt_splits {blob : List UInt8} {fuel : Nat} (hfuel : blob.length < fuel) :
    Splits blob (0, []) (loop (turnAt blob) fuel (0, [])) :=
  loop_rule (fun s _ => turnAt_meets blob s) fuel (0, []) trivial (by simpa using hfuel)

/-- **The splitter accepts exactly the concatenations of frames**, and it always ends without a
fault. -/
theorem packets_iff_frames (w : PointerWidth) (blob : Slice w) (fuel : Nat)
    (hfuel : blob.1.length < fuel) :
    Rust.packets w fuel blob.1 ≠ .fault ∧ Rust.packets w fuel blob.1 ≠ .spin ∧
      (∀ ps, Rust.packets w fuel blob.1 = .ok ps ↔
        ∃ frames : List Frame, blob.1 = frames.flatMap Frame.encode ∧
            ps = frames.map Frame.packet) ∧
      ∀ frames frames' : List Frame, blob.1 = frames.flatMap Frame.encode →
        blob.1 = frames'.flatMap Frame.encode → frames = frames' := by
  have hloop := turnAt_splits hfuel
  rw [← Rust.packetsTurn_eq blob] at hloop
  obtain ⟨hfault, hspin, hiff⟩ := hloop
  refine ⟨hfault, hspin, hiff, fun frames frames' h h' => ?_⟩
  exact frames_inj (h.symm.trans h')

/-- Five packets, of both formats. -/
def someFrames : List Frame :=
  [⟨.new1, 6, [0x04, 0x00], by decide, by decide⟩, ⟨.old1, 6, [0x04], by decide, by decide⟩,
    ⟨.old2, 14, [0x04], by decide, by decide⟩, ⟨.new5, 13, [0x6d, 0x65], by decide, by decide⟩,
    ⟨.old4, 2, [], by decide, by decide⟩]

theorem packets_iff_frames_key :
    someFrames.flatMap Frame.encode =
      [0xc6, 0x02, 0x04, 0x00, 0x98, 0x01, 0x04, 0xb9, 0x00, 0x01, 0x04,
        0xcd, 0xff, 0x00, 0x00, 0x00, 0x02, 0x6d, 0x65, 0x8a, 0x00, 0x00, 0x00, 0x00] ∧
    Rust.packets .w64 25 (someFrames.flatMap Frame.encode) =
      .ok [⟨6, [0x04, 0x00]⟩, ⟨6, [0x04]⟩, ⟨14, [0x04]⟩, ⟨13, [0x6d, 0x65]⟩, ⟨2, []⟩] := by
  have h := packets_iff_frames .w64 ⟨someFrames.flatMap Frame.encode, by decide⟩ 25 (by decide)
  exact ⟨by decide, (h.2.2.1 _).2 ⟨someFrames, rfl, rfl⟩⟩

end OpenPgp
