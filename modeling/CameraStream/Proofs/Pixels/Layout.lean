import CameraStream.Pixels.Normalize
import CameraStream.Stage.Builtin
import Mathlib.Algebra.Group.Nat.Defs

/-!
# Deep samples as they are stored

`SampleLayout.Stores` is the other side of normalization: it relates samples to the payloads that
hold them. A layout stores samples in groups, and a payload is a row of whole groups, the last of
which may be filled up. In a packed group the low bits of all samples share the last byte. Nothing
is said of which bits are whose, so what is proved here holds for every order of them.

One lemma reads a group (`highBytes_append`); by induction on the groups, what is read of a payload
that is cut anywhere is what its whole groups hold (`Stores.take_highBytes`). So normalization
leaves the high bits of all samples in order, in whichever layout they were, and of a frame that was
cut those of the groups that are left (**`normalize_holds`**).
-/

namespace CameraStream

namespace SampleLayout

/-! ### Layouts -/

/-- Bits of a sample. -/
def depth : SampleLayout → Nat
  | words bits => bits
  | packed10 => 10
  | packed12 => 12

def groupSamples : SampleLayout → Nat
  | words _ => 1
  | packed10 => 4
  | packed12 => 2

def groupBytes : SampleLayout → Nat
  | words _ => 2
  | packed10 => 5
  | packed12 => 3

/-- The eight high bits of a sample. -/
def high (l : SampleLayout) (sample : Nat) : Nat := sample >>> (l.depth - 8)

/-- How a whole group of samples is stored. -/
inductive Group : SampleLayout → List Nat → List UInt8 → Prop
  /-- A word, its low byte first. -/
  | word (bits : Nat) {s : Nat} (h : s < 65536) :
      Group (words bits) [s] [UInt8.ofNat (s % 256), UInt8.ofNat (s / 256)]
  /-- Four high bytes, and all low bits in a fifth. -/
  | packed10 (a b c d : Nat) (low : UInt8) :
      Group packed10 [a, b, c, d]
        [UInt8.ofNat (a / 4), UInt8.ofNat (b / 4), UInt8.ofNat (c / 4), UInt8.ofNat (d / 4), low]
  /-- Two high bytes, and all low bits in a third. -/
  | packed12 (a b : Nat) (low : UInt8) :
      Group packed12 [a, b] [UInt8.ofNat (a / 16), UInt8.ofNat (b / 16), low]

/-- Samples stored one group after the other. -/
inductive Stores (l : SampleLayout) : List Nat → List UInt8 → Prop
  | nil : Stores l [] []
  /-- The last group, filled up if samples are missing. -/
  | last {samples filling : List Nat} {bytes : List UInt8} (h : l.Group (samples ++ filling) bytes) :
      Stores l samples bytes
  | cons {samples rest : List Nat} {bytes payload : List UInt8} (h : l.Group samples bytes)
      (hrest : Stores l rest payload) : Stores l (samples ++ rest) (bytes ++ payload)

end SampleLayout

namespace Pixels

open SampleLayout

variable {l : SampleLayout} {samples : List Nat} {bytes payload : List UInt8}

/-! ### One group -/

theorem groupBytes_pos (l : SampleLayout) : 0 < l.groupBytes := by
  cases l <;> simp [groupBytes]

theorem groupSamples_pos (l : SampleLayout) : 0 < l.groupSamples := by
  cases l <;> simp [groupSamples]

theorem length_samples_of_group (h : l.Group samples bytes) : samples.length = l.groupSamples := by
  cases h <;> rfl

theorem length_bytes_of_group (h : l.Group samples bytes) : bytes.length = l.groupBytes := by
  cases h <;> rfl

/-- Samples that fit into words can be stored, as many as make a group. -/
theorem exists_group (hlength : samples.length = l.groupSamples) (hlt : ∀ s ∈ samples, s < 65536) :
    ∃ bytes, l.Group samples bytes := by
  cases l with
  | words bits =>
    obtain ⟨s, rfl⟩ := List.length_eq_one_iff.mp hlength
    exact ⟨_, .word bits (hlt s (List.mem_singleton_self s))⟩
  | packed10 =>
    match samples, hlength with
    | [a, b, c, d], _ => exact ⟨_, .packed10 a b c d 0⟩
  | packed12 =>
    match samples, hlength with
    | [a, b], _ => exact ⟨_, .packed12 a b 0⟩

theorem toNat_word {s : Nat} (h : s < 65536) :
    (UInt8.ofNat (s % 256)).toNat + 256 * (UInt8.ofNat (s / 256)).toNat = s := by
  simp only [UInt8.toNat_ofNat']
  omega

/-- A group in front is read first. -/
theorem highBytes_append (h : l.Group samples bytes) (rest : List UInt8) :
    highBytes l (bytes ++ rest) =
      samples.map (fun s => UInt8.ofNat (l.high s)) ++ highBytes l rest := by
  cases h with
  | word bits hs =>
    show UInt8.ofNat (_ / 2 ^ (bits - 8)) :: shiftWords bits rest = _
    rw [toNat_word hs, ← Nat.shiftRight_eq_div_pow]
    rfl
  | packed10 a b c d low =>
    simp [highBytes, highOfFive, high, depth, Nat.shiftRight_eq_div_pow]
  | packed12 a b low =>
    simp [highBytes, highOfThree, high, depth, Nat.shiftRight_eq_div_pow]

/-- A group that is not whole is not read. -/
theorem highBytes_eq_nil (h : bytes.length < l.groupBytes) : highBytes l bytes = [] := by
  cases l with
  | words bits =>
    match bytes, h with
    | [], _ | [_], _ => rfl
  | packed10 =>
    match bytes, h with
    | [], _ | [_], _ | [_, _], _ | [_, _, _], _ | [_, _, _, _], _ => rfl
  | packed12 =>
    match bytes, h with
    | [], _ | [_], _ | [_, _], _ => rfl

/-! ### Whole payloads -/

/-- As many samples as there are can be stored. -/
theorem exists_stores (l : SampleLayout) (hlt : ∀ s ∈ samples, s < 65536) :
    ∃ payload, l.Stores samples payload := by
  induction hn : samples.length using Nat.strongRecOn generalizing samples with
  | ind n ih =>
    rcases Nat.lt_or_ge n l.groupSamples with hfew | hmany
    · have hfilling : ∀ s ∈ samples ++ List.replicate (l.groupSamples - n) 0, s < 65536 := by
        simp only [List.mem_append, List.mem_replicate]
        grind
      obtain ⟨bytes, hbytes⟩ := exists_group (l := l) (by simp; omega) hfilling
      exact ⟨bytes, .last hbytes⟩
    · have hpos := groupSamples_pos l
      have hfirst : ∀ s ∈ samples.take l.groupSamples, s < 65536 :=
        fun s hs => hlt s (List.mem_of_mem_take hs)
      have hothers : ∀ s ∈ samples.drop l.groupSamples, s < 65536 :=
        fun s hs => hlt s (List.mem_of_mem_drop hs)
      obtain ⟨bytes, hbytes⟩ := exists_group (l := l) (by simp; omega) hfirst
      obtain ⟨payload, hpayload⟩ := ih (n - l.groupSamples) (by omega) hothers (by simp; omega)
      refine ⟨bytes ++ payload, ?_⟩
      rw [← List.take_append_drop l.groupSamples samples]
      exact .cons hbytes hpayload

theorem highBytes_take_of_cut (data : List UInt8) {k : Nat} (hk : k < l.groupBytes) :
    highBytes l (data.take k) = [] := by
  apply highBytes_eq_nil
  rw [List.length_take]
  omega

theorem highBytes_take_of_whole (h : l.Group samples bytes) (rest : List UInt8) (k : Nat) :
    highBytes l ((bytes ++ rest).take (l.groupBytes + k)) =
      samples.map (fun s => UInt8.ofNat (l.high s)) ++ highBytes l (rest.take k) := by
  rw [← length_bytes_of_group h, List.take_length_add_append, highBytes_append h]

/-- **What is read of a payload that is cut anywhere**: the samples of its whole groups. -/
theorem take_highBytes (h : l.Stores samples payload) (trailing : List UInt8) (k : Nat) :
    (highBytes l ((payload ++ trailing).take k)).take samples.length =
      (samples.map fun s => UInt8.ofNat (l.high s)).take (k / l.groupBytes * l.groupSamples) := by
  induction h generalizing k with
  | nil => simp
  | @last samples filling bytes h =>
    rcases Nat.lt_or_ge k l.groupBytes with hcut | hwhole
    · simp [highBytes_take_of_cut _ hcut, Nat.div_eq_of_lt hcut]
    · obtain ⟨j, rfl⟩ := Nat.exists_eq_add_of_le hwhole
      have hall : samples.length ≤ ((l.groupBytes + j) / l.groupBytes) * l.groupSamples := by
        have hlength := length_samples_of_group h
        rw [List.length_append] at hlength
        rw [Nat.add_div_left _ (groupBytes_pos l), Nat.succ_mul]
        omega
      rw [highBytes_take_of_whole h, List.map_append, List.append_assoc,
        List.take_left' (List.length_map _), List.take_of_length_le]
      rwa [List.length_map]
  | @cons samples rest bytes payload h _ ih =>
    rw [List.append_assoc]
    rcases Nat.lt_or_ge k l.groupBytes with hcut | hwhole
    · simp [highBytes_take_of_cut _ hcut, Nat.div_eq_of_lt hcut]
    · obtain ⟨j, rfl⟩ := Nat.exists_eq_add_of_le hwhole
      have hlength : (samples.map fun s => UInt8.ofNat (l.high s)).length = l.groupSamples := by
        rw [List.length_map]
        exact length_samples_of_group h
      calc
        _ = (samples.map fun s => UInt8.ofNat (l.high s)) ++
            (highBytes l ((payload ++ trailing).take j)).take rest.length := by
          rw [highBytes_take_of_whole h, List.length_append, ← List.length_map,
            List.take_length_add_append]
        _ = (samples.map fun s => UInt8.ofNat (l.high s)) ++
            (rest.map fun s => UInt8.ofNat (l.high s)).take
              (j / l.groupBytes * l.groupSamples) := by rw [ih]
        _ = _ := by
          rw [Nat.add_div_left _ (groupBytes_pos l), Nat.succ_mul, Nat.add_comm _ l.groupSamples,
            ← hlength, List.map_append, List.take_length_add_append]

/-- Of a payload that is not cut all samples are read, and nothing after them. -/
theorem take_highBytes_append (h : l.Stores samples payload) (trailing : List UInt8) :
    (highBytes l (payload ++ trailing)).take samples.length =
      samples.map fun s => UInt8.ofNat (l.high s) := by
  -- A cut so far out that no group is lost.
  let n := (payload ++ trailing).length + samples.length
  have hbytes : (payload ++ trailing).length ≤ l.groupBytes * n :=
    Nat.le_trans (Nat.le_add_right ..) (Nat.le_mul_of_pos_left n (groupBytes_pos l))
  have hsamples : samples.length ≤ n * l.groupSamples :=
    Nat.le_trans (Nat.le_add_left ..) (Nat.le_mul_of_pos_right n (groupSamples_pos l))
  have hread := take_highBytes h trailing (l.groupBytes * n)
  rw [List.take_of_length_le hbytes, Nat.mul_div_cancel_left _ (groupBytes_pos l)] at hread
  rw [hread, List.take_of_length_le]
  rwa [List.length_map]

/-! ### Frames -/

/-- A payload that holds one sample for every pixel, as the encoding of the frame stores them. -/
structure Holds (f : VideoFormat) (l : SampleLayout) (samples : List Nat) (payload : List UInt8) :
    Prop where
  layout : f.encoding.sampleLayout = some l
  length : samples.length = f.pixels
  lt : ∀ s ∈ samples, s < 2 ^ l.depth
  stored : l.Stores samples payload

theorem isSome_sampleLayout {e : Encoding} (h : StageDescriptor.bayerNormalize.accepts e = true) :
    e.sampleLayout.isSome := by
  have hall : ∀ e ∈ [Family.bayer10, .bayer12, .bayer16, .bayerPwl].flatMap Family.members,
      (Encoding.sampleLayout e).isSome := by decide
  exact hall e (List.contains_iff_mem.mp h)

theorem depth_le_of_sampleLayout {e : Encoding} (h : e.sampleLayout = some l) : l.depth ≤ 16 := by
  unfold Encoding.sampleLayout at h
  split at h
  · cases h
    decide
  · split at h
    · cases h
      decide
    · split at h <;> cases h <;> decide

/-- Samples that are no deeper than the layout can be stored. -/
theorem exists_holds {f : VideoFormat} (hl : f.encoding.sampleLayout = some l)
    (hlength : samples.length = f.pixels) (hlt : ∀ s ∈ samples, s < 2 ^ l.depth) :
    ∃ payload, Holds f l samples payload := by
  have hword : ∀ s ∈ samples, s < 65536 := by
    intro s hs
    calc
      s < 2 ^ l.depth := hlt s hs
      _ ≤ 2 ^ 16 := Nat.pow_le_pow_right (by decide) (depth_le_of_sampleLayout hl)
  obtain ⟨payload, hstored⟩ := exists_stores l hword
  exact ⟨payload, hl, hlength, hlt, hstored⟩

theorem normalize_eq {f : VideoFormat} (h : f.encoding.sampleLayout = some l) (output : VideoFormat)
    (data : List UInt8) : normalize f output data = (highBytes l data).take f.pixels := by
  simp only [normalize, h]

/-- The high bits of a sample are a byte, if the sample is no deeper than the layout. -/
theorem toNat_high {s : Nat} (h : s < 2 ^ l.depth) : (UInt8.ofNat (l.high s)).toNat = l.high s := by
  have hlt : l.high s < 256 := by
    rw [high, Nat.shiftRight_eq_div_pow]
    apply Nat.div_lt_of_lt_mul
    calc
      s < 2 ^ l.depth := h
      _ ≤ 2 ^ (l.depth - 8 + 8) := Nat.pow_le_pow_right (by decide) (by omega)
      _ = 2 ^ (l.depth - 8) * 256 := Nat.pow_add ..
  rw [UInt8.toNat_ofNat']
  exact Nat.mod_eq_of_lt hlt

theorem Holds.map_toNat {f : VideoFormat} (h : Holds f l samples payload) :
    (samples.map fun s => UInt8.ofNat (l.high s)).map UInt8.toNat = samples.map l.high := by
  rw [List.map_map]
  apply List.map_congr_left
  intro s hs
  exact toNat_high (h.lt s hs)

/-- **Normalization leaves the eight high bits of every sample, in order.** Of a payload that is cut
it leaves those of the whole groups; so two encodings of samples with the same high bits come out
the same. -/
theorem normalize_holds {f : VideoFormat}
    (haccepts : StageDescriptor.bayerNormalize.accepts f.encoding = true) :
    ∃ l, f.encoding.sampleLayout = some l ∧
      (∀ samples, samples.length = f.pixels → (∀ s ∈ samples, s < 2 ^ l.depth) →
        ∃ payload, Holds f l samples payload) ∧
      ∀ {samples : List Nat} {payload : List UInt8}, Holds f l samples payload →
        (∀ output trailing, (normalize f output (payload ++ trailing)).map UInt8.toNat =
          samples.map l.high) ∧
        (∀ output trailing k,
          (normalize f output ((payload ++ trailing).take k)).map UInt8.toNat =
            (samples.map l.high).take (k / l.groupBytes * l.groupSamples)) ∧
        ∀ {f' : VideoFormat} {l' : SampleLayout} {samples' : List Nat} {payload' : List UInt8},
          Holds f' l' samples' payload' → samples'.map l'.high = samples.map l.high →
            ∀ output output', normalize f' output' payload' = normalize f output payload := by
  obtain ⟨l, hl⟩ := Option.isSome_iff_exists.mp (isSome_sampleLayout haccepts)
  have whole : ∀ {f l samples payload}, Holds f l samples payload → ∀ output trailing,
      (normalize f output (payload ++ trailing)).map UInt8.toNat = samples.map l.high := by
    intro f l samples payload h output trailing
    rw [normalize_eq h.layout, ← h.length, take_highBytes_append h.stored, h.map_toNat]
  refine ⟨l, hl, fun samples => exists_holds hl, ?_⟩
  intro samples payload h
  refine ⟨whole h, ?_, ?_⟩
  · intro output trailing k
    rw [normalize_eq h.layout, ← h.length, take_highBytes h.stored, List.map_take, h.map_toNat]
  · intro f' l' samples' payload' h' hsame output output'
    have hbytes := whole h output []
    have hbytes' := whole h' output' []
    rw [List.append_nil] at hbytes hbytes'
    apply (List.map_inj_right fun _ _ => UInt8.toNat_inj.mp).mp
    rw [hbytes, hbytes', hsame]

/-- Six samples in fives, the second group filled up. -/
def inFives : List UInt8 := [255, 0, 1, 128, 0x43, 1, 1, 77, 78, 79]

/-- The same high bits in twelve-bit words. -/
def inWords : List UInt8 := [0xff, 0x0f, 0x0f, 0x00, 0x10, 0x00, 0x00, 0x08, 0x1f, 0x00, 0x10, 0x00]

def sixPixels (e : Encoding) : VideoFormat := ⟨e, ⟨3, 2⟩, .fps 30⟩

theorem normalize_inFives :
    Holds (sixPixels .gbrg10Packed) .packed10 [1023, 0, 5, 512, 4, 7] inFives ∧
    Holds (sixPixels .pwl12InWords) (.words 12) [4095, 15, 16, 2048, 31, 16] inWords ∧
    (normalize (sixPixels .gbrg10Packed) (sixPixels .gbrg8) (inFives ++ [9, 9])).map UInt8.toNat =
      [255, 0, 1, 128, 1, 1] ∧
    (normalize (sixPixels .gbrg10Packed) (sixPixels .gbrg8) (inFives.take 9)).map UInt8.toNat =
      [255, 0, 1, 128] ∧
    normalize (sixPixels .pwl12InWords) (sixPixels .rggb8) inWords =
      normalize (sixPixels .gbrg10Packed) (sixPixels .gbrg8) inFives := by
  have hfives : Holds (sixPixels .gbrg10Packed) .packed10 [1023, 0, 5, 512, 4, 7] inFives := by
    have hlast : SampleLayout.packed10.Group ([4, 7] ++ [308, 312]) [1, 1, 77, 78, 79] :=
      .packed10 4 7 308 312 79
    exact ⟨rfl, rfl, by decide, .cons (.packed10 1023 0 5 512 0x43) (.last hlast)⟩
  have hwords : Holds (sixPixels .pwl12InWords) (.words 12) [4095, 15, 16, 2048, 31, 16] inWords := by
    refine ⟨rfl, rfl, by decide, ?_⟩
    exact .cons (.word 12 (by decide)) (.cons (.word 12 (by decide)) (.cons (.word 12 (by decide))
      (.cons (.word 12 (by decide)) (.cons (.word 12 (by decide)) (.cons (.word 12 (by decide))
        .nil)))))
  obtain ⟨l, hl, -, hdecodes⟩ := normalize_holds (f := sixPixels .gbrg10Packed) (by decide)
  cases hfives.layout.symm.trans hl
  obtain ⟨hwhole, hcut, hsame⟩ := hdecodes hfives
  refine ⟨hfives, hwords, ?_, ?_, ?_⟩
  · exact hwhole _ _
  · exact List.append_nil inFives ▸ hcut _ [] 9
  · exact hsame hwords rfl _ _

end Pixels
end CameraStream
