import EditorServices.Proofs.Json.BrokenValues
import EditorServices.Transport.Frame
import Mathlib.Data.Nat.Digits.Defs

/-!
# `Proofs.Transport.Framing` — a frame is taken off a stream as it was put on

The text of a frame is ASCII, so that its bytes are its characters one by one, and no line of its head has
a line end in it. From there taking a frame off a stream is reading its first line and dropping two more.
What is taken of a frame that breaks off depends on where it does: mostly nothing, sometimes a part of the
body that is no message, and right after the label a length that is not there.

## Contents
- **ASCII.** `byteOf`; writing and reading of ASCII texts as bytes.
- **Lines.** Taking lines, and what follows a blank one.
- **Lengths.** `lengthOf_digits`, for all there may be of a line with a length.
- **Frames.** `Limits.Fits`, `frameBytes`, and `takeBody_frame`.
- **Broken frames.** `takeBody_cut`.
- **Bodies.** `messageOf?_bodyBytes` and `messageOf?_part`.
-/

namespace EditorServices

/-! ## ASCII -/

/-- The byte of an ASCII character. -/
def byteOf (c : Char) : UInt8 := UInt8.ofNat c.toNat

theorem toNat_byteOf {c : Char} (h : c.toNat < 128) : (byteOf c).toNat = c.toNat := by
  unfold byteOf
  rw [UInt8.toNat_ofNat']
  omega

theorem byteOf_lt {c : Char} (h : c.toNat < 128) : byteOf c < 0x80 := by
  rw [UInt8.lt_iff_toNat_lt, toNat_byteOf h]
  exact h

theorem utf8Encode_of_isAscii {s : List Char} (h : IsAscii s) : utf8Encode s = s.map byteOf := by
  induction s with
  | nil => rfl
  | cons c s ih =>
    have hc : c.toNat < 0x80 := h c List.mem_cons_self
    have hmore := ih fun d hd => h d (List.mem_cons_of_mem c hd)
    rw [List.map_cons, ← hmore]
    show utf8Char c ++ utf8Encode s = byteOf c :: utf8Encode s
    unfold utf8Char
    dsimp only
    rw [if_pos hc]
    rfl

/-- ASCII texts are read from their bytes. -/
theorem utf8Decode?_map {s : List Char} (h : IsAscii s) : utf8Decode? (s.map byteOf) = some s := by
  induction s with
  | nil => rw [List.map_nil, utf8Decode?]
  | cons c s ih =>
    have hc : c.toNat < 128 := h c List.mem_cons_self
    have hmore := ih fun d hd => h d (List.mem_cons_of_mem c hd)
    rw [List.map_cons, utf8Decode?.eq_def]
    dsimp only
    rw [if_pos (byteOf_lt hc), hmore, toNat_byteOf hc, Char.ofNat_toNat]
    rfl

namespace Frame

/-! ## Lines -/

section

variable {line rest : Bytes}

theorem takeLine_of_not_mem (h : newline ∉ line) : takeLine line = (line, []) := by
  induction line with
  | nil => rfl
  | cons b line ih =>
    have hb : b ≠ newline := fun heq => h (heq ▸ List.mem_cons_self)
    rw [takeLine, if_neg hb, ih fun hmem => h (List.mem_cons_of_mem b hmem)]

theorem takeLine_newline (h : newline ∉ line) (rest : Bytes) :
    takeLine (line ++ newline :: rest) = (line ++ [newline], rest) := by
  induction line with
  | nil =>
    rw [List.nil_append, takeLine, if_pos rfl]
    rfl
  | cons b line ih =>
    have hb : b ≠ newline := fun heq => h (heq ▸ List.mem_cons_self)
    rw [List.cons_append, takeLine, if_neg hb, ih fun hmem => h (List.mem_cons_of_mem b hmem)]
    rfl

theorem afterBlankLine_of_ne_nil {s : Bytes} (h : s ≠ []) : afterBlankLine s =
    if isBlankLine (takeLine s).1 then some (takeLine s).2 else afterBlankLine (takeLine s).2 := by
  obtain ⟨b, s, rfl⟩ := List.exists_cons_of_ne_nil h
  rw [afterBlankLine]

theorem afterBlankLine_nil : afterBlankLine [] = none := by
  rw [afterBlankLine]

/-- A line that is not blank is passed over. -/
theorem afterBlankLine_line (h : newline ∉ line) (hblank : isBlankLine line = false) :
    afterBlankLine (line ++ newline :: rest) = afterBlankLine rest := by
  have hwhole : isBlankLine (line ++ [newline]) = false := by
    unfold isBlankLine at hblank ⊢
    rw [List.all_append, hblank, Bool.false_and]
  rw [afterBlankLine_of_ne_nil (List.append_ne_nil_of_right_ne_nil line (List.cons_ne_nil _ _)),
    takeLine_newline h, hwhole]
  rfl

/-- A line that breaks off before it can be blank is passed over. -/
theorem afterBlankLine_open (h : newline ∉ line) (hblank : line ≠ [] → isBlankLine line = false) :
    afterBlankLine line = none := by
  by_cases hne : line = []
  · rw [hne, afterBlankLine_nil]
  · rw [afterBlankLine_of_ne_nil hne, takeLine_of_not_mem h, hblank hne]
    exact afterBlankLine_nil

end

/-! ## Lengths -/

section

variable {limits : Limits} {ds : List Char}

theorem stripBy_append {α : Type} {p : α → Bool} {s t : List α} (hs : ∀ x ∈ s, p x = false)
    (ht : ∀ x ∈ t, p x = true) (hne : s ≠ []) : stripBy p (s ++ t) = s := by
  have hkeep : ∀ u : List α, u ≠ [] → (∀ x ∈ u, p x = false) → ∀ v, (u ++ v).dropWhile p = u ++ v := by
    intro u hu hall v
    obtain ⟨x, u, rfl⟩ := List.exists_cons_of_ne_nil hu
    have hx : ¬p x = true := by
      rw [hall x List.mem_cons_self]
      exact Bool.false_ne_true
    rw [List.cons_append, List.dropWhile_cons_of_neg hx]
  have hend : ∀ x ∈ t.reverse, p x = true := fun x hx => ht x (List.mem_reverse.mp hx)
  have hback := hkeep s.reverse (fun heq => hne (List.reverse_eq_nil_iff.mp heq))
    (fun x hx => hs x (List.mem_reverse.mp hx)) []
  rw [List.append_nil] at hback
  unfold stripBy
  rw [hkeep s hne hs, List.reverse_append, List.dropWhile_append_of_pos hend, hback, List.reverse_reverse]

theorem isAscii_digits (h : ∀ d ∈ ds, isDigit d = true) : IsAscii ds := by
  intro d hd
  have hrange := isDigit_iff.mp (h d hd)
  omega

/-- The bytes of ASCII characters are read as the characters. -/
theorem asciiText_map {s : List Char} (h : IsAscii s) : asciiText (s.map byteOf) = s := by
  induction s with
  | nil => rfl
  | cons c s ih =>
    have hc : c.toNat < 128 := h c List.mem_cons_self
    have hmore := ih fun d hd => h d (List.mem_cons_of_mem c hd)
    unfold asciiText at hmore ⊢
    rw [List.map_cons, List.map_cons, hmore, if_pos (byteOf_lt hc), toNat_byteOf hc, Char.ofNat_toNat]

theorem asciiDigit?_of_isDigit {d : Char} (h : isDigit d = true) : asciiDigit? d = some (d.toNat - 48) := by
  unfold isDigit at h
  rw [Bool.and_eq_true, decide_eq_true_eq, decide_eq_true_eq] at h
  unfold asciiDigit?
  rw [if_pos h]

/-- Digits without underscores are taken one by one. -/
theorem groupedDigits?_digits (h : ∀ d ∈ ds, isDigit d = true) (hne : ds ≠ []) :
    groupedDigits? asciiDigit? ds = some (ds.map fun d => d.toNat - 48) := by
  induction ds with
  | nil => exact absurd rfl hne
  | cons d ds ih =>
    have hd := asciiDigit?_of_isDigit (h d List.mem_cons_self)
    cases ds with
    | nil =>
      rw [groupedDigits?, hd]
      rfl
    | cons e ds =>
      have hmore := ih (fun c hc => h c (List.mem_cons_of_mem d hc)) (List.cons_ne_nil e ds)
      have he : e ≠ '_' := by
        rintro rfl
        exact absurd (h '_' (List.mem_cons_of_mem d List.mem_cons_self)) (by decide)
      rw [groupedDigits?, hd, hmore]
      · rfl
      · intro c r heq _
        exact he heq

theorem signedNumber?_digits (h : ∀ d ∈ ds, isDigit d = true) (hne : ds ≠ []) :
    signedNumber? asciiDigit? ds = some (digitsValue ds : Int) := by
  have hsign : takeSign ds = (false, ds) := by
    unfold takeSign
    split
    · exact absurd (h '-' List.mem_cons_self) (by decide)
    · exact absurd (h '+' List.mem_cons_self) (by decide)
    · rfl
  have hnumber : digitsNumber (ds.map fun d => d.toNat - 48) = digitsValue ds := by
    unfold digitsNumber digitsValue
    rw [List.foldl_map]
  unfold signedNumber?
  rw [hsign]
  dsimp only
  rw [groupedDigits?_digits h hne, Option.map_some, hnumber]
  rfl

/-- Digits before blanks are a number, if they are not too many. -/
theorem number?_digits (h : ∀ d ∈ ds, isDigit d = true) (hne : ds ≠ [])
    (hfew : ∀ k ∈ limits.digits, ds.length ≤ k) {blanks : Bytes} (hblanks : ∀ b ∈ blanks, isByteBlank b = true) :
    number? limits (ds.map byteOf ++ blanks) = some (digitsValue ds : Int) := by
  have hsolid : ∀ b ∈ ds.map byteOf, isByteBlank b = false := by
    intro b hb
    obtain ⟨d, hd, rfl⟩ := List.mem_map.mp hb
    have hrange := isDigit_iff.mp (h d hd)
    have hbyte : (byteOf d).toNat = d.toNat := toNat_byteOf (by omega)
    unfold isByteBlank
    simp only [Bool.or_eq_false_iff, Bool.and_eq_false_iff, decide_eq_false_iff_not, beq_eq_false_iff_ne,
      UInt8.le_iff_toNat_le, ne_eq, ← UInt8.toNat_inj, hbyte]
    have hthirteen : (13 : UInt8).toNat = 13 := rfl
    have hspace : (32 : UInt8).toNat = 32 := rfl
    omega
  have htext : asciiText (stripBy isByteBlank (ds.map byteOf ++ blanks)) = ds := by
    rw [stripBy_append hsolid hblanks fun heq => hne (List.map_eq_nil_iff.mp heq),
      asciiText_map (isAscii_digits h)]
  have hall : ds.filter isDigit = ds := List.filter_eq_self.mpr h
  have hallowed : limits.digits.any (· < ds.length) = false := by
    cases hdigits : limits.digits with
    | none => rfl
    | some k =>
      rw [Option.any_some, decide_eq_false_iff_not, Nat.not_lt]
      exact hfew k hdigits
  unfold number?
  rw [htext]
  dsimp only
  rw [hall, hallowed]
  exact signedNumber?_digits h hne

/-- The label among bytes. -/
def labelBytes : Bytes := lengthLabel.toList.map byteOf

theorem utf8Encode_lengthLabel : utf8Encode lengthLabel.toList = labelBytes :=
  utf8Encode_of_isAscii (by decide)

theorem labelBytes_eq : labelBytes =
    byteOf 'C' :: ['o', 'n', 't', 'e', 'n', 't', '-', 'L', 'e', 'n', 'g', 't', 'h', ':', ' '].map byteOf := rfl

/-- Bytes without the first one of the label do not contain it. -/
theorem contains_labelBytes {s : Bytes} (h : byteOf 'C' ∉ s) : contains labelBytes s = false := by
  induction s with
  | nil => rfl
  | cons b s ih =>
    have hb : (byteOf 'C' == b) = false := beq_eq_false_iff_ne.mpr fun heq => h (heq ▸ List.mem_cons_self)
    have hstart : labelBytes.isPrefixOf (b :: s) = false := by
      rw [labelBytes_eq, List.isPrefixOf_cons_cons, hb, Bool.false_and]
    rw [contains, hstart, ih fun hmem => h (List.mem_cons_of_mem b hmem)]
    rfl

/-- **A length is read from its digits**, with or without what ends its line. -/
theorem lengthOf_digits (h : ∀ d ∈ ds, isDigit d = true) (hne : ds ≠ [])
    (hfew : ∀ k ∈ limits.digits, ds.length ≤ k) {blanks : Bytes} (hblanks : ∀ b ∈ blanks, isByteBlank b = true) :
    lengthOf limits (labelBytes ++ (ds.map byteOf ++ blanks)) = .stated (digitsValue ds) := by
  have hother : byteOf 'C' ∉ ds.map byteOf ++ blanks := by
    intro hmem
    rcases List.mem_append.mp hmem with hmem | hmem
    · obtain ⟨d, hd, heq⟩ := List.mem_map.mp hmem
      have hrange := isDigit_iff.mp (h d hd)
      have hbyte : (byteOf d).toNat = d.toNat := toNat_byteOf (by omega)
      rw [heq] at hbyte
      have hletter : (byteOf 'C').toNat = 67 := by decide
      omega
    · have hblank := hblanks _ hmem
      revert hblank
      decide
  have hstart : labelBytes.isPrefixOf (labelBytes ++ (ds.map byteOf ++ blanks)) = true :=
    List.isPrefixOf_iff_prefix.mpr (List.prefix_append _ _)
  unfold lengthOf
  rw [utf8Encode_lengthLabel]
  dsimp only
  rw [if_pos hstart, List.drop_left, contains_labelBytes hother, number?_digits h hne hfew hblanks]
  rfl

/-- A part of the label says nothing about a length. -/
theorem lengthOf_unstated {line : Bytes} (h : ¬labelBytes <+: line) : lengthOf limits line = .unstated := by
  have hstart : labelBytes.isPrefixOf line ≠ true := fun heq => h (List.isPrefixOf_iff_prefix.mp heq)
  unfold lengthOf
  rw [utf8Encode_lengthLabel]
  dsimp only
  rw [if_neg hstart]

/-- After the label a length must come. -/
theorem lengthOf_labelBytes (limits : Limits) : lengthOf limits labelBytes = .unreadable := by
  have hstart : labelBytes.isPrefixOf labelBytes = true := List.isPrefixOf_iff_prefix.mpr List.prefix_rfl
  have hnumber : number? limits [] = none := by
    unfold number?
    dsimp only
    split
    · rfl
    · rfl
  unfold lengthOf
  rw [utf8Encode_lengthLabel]
  dsimp only
  rw [if_pos hstart, List.drop_length, contains_labelBytes List.not_mem_nil, hnumber]
  rfl

end

/-! ## Frames -/

/-- What a reader takes in: a value within its limits, with a text that is not too long. -/
structure Limits.Fits (limits : Limits) (message : Json) : Prop where
  taken : message.Taken limits.digits limits.depth
  readable : ∀ k ∈ limits.digits, (decimalDigits (bodyText message).length).length ≤ k
  addressable : limits.exceeds (bodyText message).length = false
  held : ∀ n ∈ limits.room, ((bodyText message).length : Int) < n

/-- Without limits everything fits that the wire can say. -/
theorem Limits.fits_unlimited {message : Json} (h : message.Taken none none) :
    Limits.unlimited.Fits message where
  taken := h
  readable := by
    intro k hk
    cases hk
  addressable := rfl
  held := by
    intro n hn
    cases hn

/-- For the usual reader it is enough that there is room for the text. -/
theorem Limits.fits_usual {message : Json} (h : message.Taken (some maxIntegerDigits) (some 1024))
    (hlength : (bodyText message).length < 34359738368) : Limits.usual.Fits message where
  taken := h
  readable := by
    intro k hk
    obtain rfl : maxIntegerDigits = k := Option.some.inj hk
    have hdigits : (decimalDigits (bodyText message).length).length ≤ 11 :=
      Nat.toDigits_length 10 _ 11 (by decide) (by omega)
    unfold maxIntegerDigits
    omega
  addressable := by
    unfold Limits.exceeds Limits.usual Limits.lengthBound bodyOverhead
    rw [Option.any_some, decide_eq_false_iff_not]
    omega
  held := by
    intro n hn
    obtain rfl : Limits.roomBound = n := Option.some.inj hn
    unfold Limits.roomBound
    omega

/-- The bytes of a message's body. -/
def bodyBytes (message : Json) : Bytes := (bodyText message).map byteOf

/-- The first line of a head, but for the line end. -/
def lengthLine (length : Nat) : Bytes := labelBytes ++ ((decimalDigits length).map byteOf ++ [13])

/-- The second line. -/
def kindLine : Bytes := "Content-Type: application/vscode-jsonrpc; charset=utf8\r".toList.map byteOf

/-- The bytes of a frame. -/
def frameBytes (message : Json) : Bytes :=
  lengthLine (bodyText message).length ++
    newline :: (kindLine ++ newline :: 13 :: newline :: bodyBytes message)

variable {limits : Limits} {message : Json} {q rest : Bytes}

theorem utf8Encode_ofMessage (h : IsAscii (bodyText message)) :
    utf8Encode (ofMessage message) = frameBytes message := by
  have hbody : utf8Encode (bodyText message) = bodyBytes message := utf8Encode_of_isAscii h
  have hall : IsAscii (ofMessage message) := by
    unfold ofMessage
    refine ((IsAscii.append ?_ (isAscii_decimalDigits _)).append ?_).append h
    · decide
    · decide
  rw [utf8Encode_of_isAscii hall]
  unfold ofMessage frameBytes lengthLine labelBytes
  dsimp only
  rw [hbody, bodyBytes, List.length_map]
  have hend : headEnd.toList.map byteOf = 13 :: newline :: (kindLine ++ [newline, 13, newline]) := by
    decide
  simp only [List.map_append, hend, List.append_assoc, List.cons_append, List.nil_append]

theorem newline_not_mem_digits (n : Nat) : newline ∉ (decimalDigits n).map byteOf := by
  intro hmem
  obtain ⟨d, hd, heq⟩ := List.mem_map.mp hmem
  have hrange := isDigit_iff.mp (isDigit_of_mem hd)
  have hbyte : (byteOf d).toNat = d.toNat := toNat_byteOf (by omega)
  rw [heq] at hbyte
  have hten : newline.toNat = 10 := rfl
  omega

theorem newline_not_mem_lengthLine (n : Nat) : newline ∉ lengthLine n := by
  unfold lengthLine
  rw [List.mem_append, List.mem_append]
  rintro (hlabel | hdigits | hreturn)
  · revert hlabel
    decide
  · exact newline_not_mem_digits n hdigits
  · revert hreturn
    decide

theorem newline_not_mem_kindLine : newline ∉ kindLine := by decide

/-- What there is of a line that starts with a letter is not blank. -/
theorem isBlankLine_part {line : Bytes} (hline : ∃ r, line = byteOf 'C' :: r) (hq : q <+: line)
    (hne : q ≠ []) : isBlankLine q = false := by
  obtain ⟨r, rfl⟩ := hline
  rcases List.prefix_cons_iff.mp hq with rfl | ⟨q, rfl, -⟩
  · exact absurd rfl hne
  · have hletter : isByteBlank (byteOf 'C') = false := by decide
    unfold isBlankLine
    rw [List.all_cons, hletter, Bool.false_and]

theorem lengthLine_head (n : Nat) : ∃ r, lengthLine n = byteOf 'C' :: r := ⟨_, rfl⟩

theorem kindLine_head : ∃ r, kindLine = byteOf 'C' :: r := ⟨_, rfl⟩

/-- What is left of a head after its first line. -/
theorem afterBlankLine_lengthLine (n : Nat) (s : Bytes) :
    afterBlankLine (lengthLine n ++ newline :: s) = afterBlankLine s :=
  afterBlankLine_line (newline_not_mem_lengthLine n)
    (isBlankLine_part (lengthLine_head n) List.prefix_rfl (List.cons_ne_nil _ _))

/-- What is left of a head after its second line. -/
theorem afterBlankLine_kindLine (s : Bytes) :
    afterBlankLine (kindLine ++ newline :: s) = afterBlankLine s :=
  afterBlankLine_line newline_not_mem_kindLine
    (isBlankLine_part kindLine_head List.prefix_rfl (List.cons_ne_nil _ _))

/-- A body begins after the blank line. -/
theorem afterBlankLine_body (s : Bytes) : afterBlankLine (13 :: newline :: s) = some s := by
  rw [afterBlankLine_of_ne_nil (List.cons_ne_nil _ _)]
  rfl

/-- The first line of a head states the length of the body. -/
theorem lengthOf_lengthLine (h : limits.Fits message) {blanks : Bytes}
    (hblanks : ∀ b ∈ blanks, isByteBlank b = true) :
    lengthOf limits (lengthLine (bodyText message).length ++ blanks) =
      .stated ((bodyText message).length : Int) := by
  have hends : ∀ b ∈ 13 :: blanks, isByteBlank b = true := by
    intro b hb
    rcases List.mem_cons.mp hb with rfl | hb
    · rfl
    · exact hblanks b hb
  have hlength := lengthOf_digits (fun d hd => isDigit_of_mem hd) (decimalDigits_ne_nil _) h.readable hends
  rw [digitsValue_decimalDigits] at hlength
  unfold lengthLine
  rw [List.append_assoc, List.append_assoc, List.singleton_append]
  exact hlength

/-- A body of the stated length, or what there is of it. -/
theorem takeBody_head (h : limits.Fits message) (s : Bytes) :
    takeBody limits (lengthLine (bodyText message).length ++ newline :: s) = match afterBlankLine s with
      | none => .ended
      | some r => .body (r.take (bodyText message).length) (r.drop (bodyText message).length) := by
  have hlength : lengthOf limits (lengthLine (bodyText message).length ++ [newline]) = _ :=
    lengthOf_lengthLine h (List.forall_mem_singleton.mpr rfl)
  have hroom : limits.room.any (· ≤ ((bodyText message).length : Int)) = false := by
    cases hr : limits.room with
    | none => rfl
    | some n =>
      rw [Option.any_some, decide_eq_false_iff_not, Int.not_le]
      exact h.held n hr
  have hpos : (0 : Int) ≤ ((bodyText message).length : Int) := Int.natCast_nonneg _
  unfold takeBody
  rw [takeLine_newline (newline_not_mem_lengthLine _)]
  dsimp only
  rw [hlength]
  dsimp only
  rw [afterBlankLine_lengthLine]
  cases afterBlankLine s with
  | none => rfl
  | some r =>
    dsimp only
    rw [h.addressable, hroom, if_pos hpos, Int.toNat_natCast]
    rfl

/-- **A frame is taken off a stream whole**, and nothing with it. -/
theorem takeBody_frame (h : limits.Fits message) (rest : Bytes) :
    takeBody limits (frameBytes message ++ rest) = .body (bodyBytes message) rest := by
  have hlength : (bodyBytes message).length = (bodyText message).length := List.length_map _
  unfold frameBytes
  rw [List.append_assoc, List.cons_append, List.append_assoc, List.cons_append, List.cons_append,
    List.cons_append, takeBody_head h, afterBlankLine_kindLine, afterBlankLine_body]
  dsimp only
  rw [← hlength, List.take_left, List.drop_left]

/-! ## Broken frames -/

/-- A stream that ends in its first line has no body. -/
theorem takeBody_lengthLine (h : limits.Fits message) (hq : q <+: lengthLine (bodyText message).length)
    (hne : q ≠ labelBytes) : takeBody limits q = .ended := by
  have hnone : afterBlankLine q = none := by
    refine afterBlankLine_open (fun hmem => newline_not_mem_lengthLine _ (hq.subset hmem)) fun hsome => ?_
    exact isBlankLine_part (lengthLine_head _) hq hsome
  have hline : takeLine q = (q, []) :=
    takeLine_of_not_mem fun hmem => newline_not_mem_lengthLine _ (hq.subset hmem)
  have hended : lengthOf limits q ≠ .unreadable → takeBody limits q = .ended := by
    intro hreadable
    unfold takeBody
    rw [hline]
    dsimp only
    rw [hnone]
    cases hlength : lengthOf limits q with
    | unstated => rfl
    | stated n => rfl
    | unreadable => exact absurd hlength hreadable
  refine hended ?_
  unfold lengthLine at hq
  rcases cut_append hq with hlabel | ⟨q₁, hq₁ne, rfl, hq₁⟩
  · -- a part of the label
    have hpart : ¬labelBytes <+: q := fun hwhole => hne (hlabel.eq_of_length_le hwhole.length_le)
    rw [lengthOf_unstated hpart]
    decide
  rcases cut_append hq₁ with hdigits | ⟨q₂, -, rfl, hq₂⟩
  · -- some of the digits
    have hsome : q₁ = ((decimalDigits (bodyText message).length).take q₁.length).map byteOf := by
      rw [List.map_take]
      exact List.prefix_iff_eq_take.mp hdigits
    generalize hds : (decimalDigits (bodyText message).length).take q₁.length = ds at hsome
    have hpart : ds <+: decimalDigits (bodyText message).length := hds ▸ List.take_prefix _ _
    have hdsne : ds ≠ [] := by
      rintro rfl
      exact hq₁ne hsome
    have hlength : lengthOf limits (labelBytes ++ (ds.map byteOf ++ [])) = _ :=
      lengthOf_digits (fun d hd => isDigit_of_mem (hpart.subset hd)) hdsne
        (fun k hk => Nat.le_trans hpart.length_le (h.readable k hk)) (fun b hb => absurd hb List.not_mem_nil)
    rw [List.append_nil, ← hsome] at hlength
    rw [hlength]
    exact Length.noConfusion
  · -- all of them, and perhaps what ends the line
    have hblanks : ∀ b ∈ q₂, isByteBlank b = true := by
      intro b hb
      rw [List.mem_singleton.mp (hq₂.subset hb)]
      rfl
    have hlength : lengthOf limits _ = _ :=
      lengthOf_digits (fun d hd => isDigit_of_mem hd) (decimalDigits_ne_nil (bodyText message).length) h.readable
        hblanks
    rw [hlength]
    exact Length.noConfusion

/-- A part of a body that is found as one. -/
def IsPart (message : Json) (part : Bytes) : Prop := part <+: bodyBytes message ∧ part ≠ bodyBytes message

/-- After a label at the end of the stream there is no length to be used. -/
theorem takeBody_labelBytes (limits : Limits) : takeBody limits labelBytes = .unreadable [] := by
  have hline : takeLine labelBytes = (labelBytes, []) := takeLine_of_not_mem (by decide)
  unfold takeBody
  rw [hline]
  dsimp only
  rw [lengthOf_labelBytes]

/-- **What is taken of a frame that breaks off** anywhere but right after the label: the stream ends before a
body begins, or a part of the body is found. -/
theorem takeBody_cut (h : limits.Fits message) (hbody : bodyText message ≠ [])
    (hq : q <+: frameBytes message) (hne : q ≠ frameBytes message) (hlabel : q ≠ labelBytes) :
    takeBody limits q = .ended ∨ ∃ part, IsPart message part ∧ takeBody limits q = .body part [] := by
  have hbodyne : bodyBytes message ≠ [] := fun heq => hbody (List.map_eq_nil_iff.mp heq)
  unfold frameBytes at hq hne
  rcases cut_append hq with hq | ⟨q₁, hq₁ne, rfl, hq₁⟩
  · exact Or.inl (takeBody_lengthLine h hq hlabel)
  rcases List.prefix_cons_iff.mp hq₁ with rfl | ⟨q₂, rfl, hq₂⟩
  · exact absurd rfl hq₁ne
  rw [takeBody_head h]
  rcases cut_append hq₂ with hq₂ | ⟨q₃, hq₃ne, rfl, hq₃⟩
  · -- in the second line
    left
    rw [afterBlankLine_open (fun hmem => newline_not_mem_kindLine (hq₂.subset hmem))
      (isBlankLine_part kindLine_head hq₂)]
  rcases List.prefix_cons_iff.mp hq₃ with rfl | ⟨q₄, rfl, hq₄⟩
  · exact absurd rfl hq₃ne
  rw [afterBlankLine_kindLine]
  rcases List.prefix_cons_iff.mp hq₄ with rfl | ⟨q₅, rfl, hq₅⟩
  · left
    rw [afterBlankLine_nil]
  right
  rcases List.prefix_cons_iff.mp hq₅ with rfl | ⟨part, rfl, hpart⟩
  · -- a line of the carriage return alone is blank
    refine ⟨[], ⟨List.nil_prefix, hbodyne.symm⟩, ?_⟩
    have hreturn : afterBlankLine [13] = some [] := afterBlankLine_of_ne_nil (List.cons_ne_nil _ _)
    rw [hreturn]
    dsimp only
    rw [List.take_nil, List.drop_nil]
  · have hle : part.length ≤ (bodyText message).length := by
      have hlength := hpart.length_le
      rwa [bodyBytes, List.length_map] at hlength
    refine ⟨part, ⟨hpart, fun heq => hne (by rw [heq])⟩, ?_⟩
    rw [afterBlankLine_body]
    dsimp only
    rw [List.take_of_length_le hle, List.drop_eq_nil_of_le hle]

/-! ## Bodies -/

/-- **The body of a frame is read as its message.** -/
theorem messageOf?_bodyBytes (h : limits.Fits message) : messageOf? limits (bodyBytes message) = some message := by
  have hascii : IsAscii (bodyText message) := h.taken.ascii 0
  unfold messageOf? bodyBytes
  rw [utf8Decode?_map hascii]
  exact h.taken.readWire_print

/-- **A part of the body of an object is not read.** -/
theorem messageOf?_part {ms : List (String × Json)} {part : Bytes} (h : limits.Fits (.obj ms))
    (hpart : IsPart (.obj ms) part) : messageOf? limits part = none := by
  obtain ⟨htake, hne⟩ := hpart
  have htext : part = ((bodyText (.obj ms)).take part.length).map byteOf := by
    rw [List.map_take]
    exact List.prefix_iff_eq_take.mp htake
  generalize hs : (bodyText (.obj ms)).take part.length = s at htext
  have hspart : s <+: bodyText (.obj ms) := hs ▸ List.take_prefix _ _
  have hascii : IsAscii s := fun c hc => h.taken.ascii 0 c (hspart.subset hc)
  unfold messageOf?
  rw [htext, utf8Decode?_map hascii]
  refine h.taken.readWire_cut hspart fun heq => hne ?_
  rw [htext, heq]
  rfl

end Frame

end EditorServices
