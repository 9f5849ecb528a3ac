import EditorServices.Proofs.Json.Escapes
import EditorServices.Proofs.Paths
import EditorServices.Proofs.Utf8
import EditorServices.Uri

/-!
# `Proofs.FileUris` — file URIs say which file they mean

The URI of a path is its normal form, byte by byte. Each byte is written so that it can be read again, and
the normal form of an absolute path is where its components lead from the root; it is its own normal form.
So URIs can be compared as texts in place of paths.

## Contents
- **Normal form.** `Path.Walk`, where components lead; `Path.Normalizes`, what a normal form is;
  `normalizes_normalize` and `normalize_normalize`.
- **Percent-encoding.** `Encoded`, the texts that are written, and `decode?_encode`.
- **File URIs.** `file_uri_faithful`.
-/

namespace EditorServices

/-! ## Normal form -/

namespace Path

/-- Where components lead from the root, as a row of names. Above the root there is nothing, so that going up
from there stays. -/
inductive Walk : List (List Char) → List (List Char) → Prop where
  | nil : Walk [] []
  | stay {parts names : List (List Char)} {part : List Char} (h : Walk parts names)
      (hpart : part = [] ∨ part = ['.']) : Walk (parts ++ [part]) names
  | up {parts names : List (List Char)} (h : Walk parts names) : Walk (parts ++ [['.', '.']]) names.dropLast
  | down {parts names : List (List Char)} {part : List Char} (h : Walk parts names) (hpart : IsName part) :
      Walk (parts ++ [part]) (names ++ [part])

/-- The slashes at the front of a normal form: two if the path has exactly two there, else one. -/
def leading (s : List Char) : List Char :=
  if (s.takeWhile (· = '/')).length = 2 then ['/', '/'] else ['/']

/-- What it is to be the normal form of an absolute path: the leading slashes, and then the names to which the
components lead. None of these is empty or a dot or two, or has a slash in it. -/
def Normalizes (s normal : List Char) : Prop :=
  ∃ names, normal = leading s ++ joinWith ['/'] names ∧ (∀ p ∈ names, IsName p) ∧ Walk (splitAt1 '/' s) names

/-- The components of a path lead where the path leads. -/
theorem walk_foldl_pushComponent (parts : List (List Char)) (h : ∀ p ∈ parts, '/' ∉ p) :
    Walk parts (parts.foldl pushComponent []).reverse := by
  induction parts using List.reverseRecOn with
  | nil => exact .nil
  | append_singleton parts part ih =>
    have hparts := ih fun p hp => h p (List.mem_append_left [part] hp)
    have hpart : '/' ∉ part := h part (List.mem_append_right parts List.mem_cons_self)
    rw [List.foldl_append, List.foldl_cons, List.foldl_nil]
    unfold pushComponent
    split
    · next hstay => exact hparts.stay hstay
    · next hnot =>
      split
      · next hup =>
        rw [hup, ← List.dropLast_reverse]
        exact hparts.up
      · next hdots =>
        rw [not_or] at hnot
        rw [List.reverse_cons]
        exact hparts.down ⟨hnot.1, hnot.2, hdots, hpart⟩

theorem walk_components (s : List Char) : Walk (splitAt1 '/' s) (components s) :=
  walk_foldl_pushComponent (splitAt1 '/' s) fun _ hp => not_mem_of_mem_splitAt1 hp

theorem root_slash {c : Char} (hc : c ≠ '/') (r : List Char) : root ('/' :: c :: r) = ['/'] := by
  unfold root
  split
  · next heq => exact absurd (List.cons.inj (List.cons.inj heq).2).1 hc
  · next heq => exact absurd (List.cons.inj (List.cons.inj heq).2).1 hc
  · rfl
  · next hnone => exact absurd rfl (hnone (c :: r))

theorem root_slash_slash {c : Char} (hc : c ≠ '/') (r : List Char) :
    root ('/' :: '/' :: c :: r) = ['/', '/'] := by
  unfold root
  split
  · next heq => exact absurd (List.cons.inj (List.cons.inj (List.cons.inj heq).2).2).1 hc
  · rfl
  · next hnot heq => exact absurd (List.cons.inj heq).2.symm (hnot (c :: r))
  · next hnone => exact absurd rfl (hnone ('/' :: c :: r))

theorem root_of_absolute {s : List Char} (h : s.head? = some '/') : root s = leading s := by
  obtain ⟨r, rfl⟩ := List.head?_eq_some_iff.mp h
  rcases r with _ | ⟨c, r⟩
  · rfl
  · by_cases hc : c = '/'
    · subst hc
      rcases r with _ | ⟨d, r⟩
      · rfl
      · by_cases hd : d = '/'
        · subst hd
          simp [root, leading]
        · rw [root_slash_slash hd]
          simp [leading, hd]
    · rw [root_slash hc]
      simp [leading, hc]

/-- **The normal form of an absolute path is one.** -/
theorem normalizes_normalize {s : List Char} (h : s.head? = some '/') : Normalizes s (normalize s) := by
  refine ⟨components s, ?_, fun p hp => isName_of_mem_components hp, walk_components s⟩
  rw [normalize, root_of_absolute h]

theorem head?_join {cwd : List Char} (h : cwd.head? = some '/') (path : List Char) :
    (join cwd path).head? = some '/' := by
  obtain ⟨r, rfl⟩ := List.head?_eq_some_iff.mp h
  unfold join
  split
  · rfl
  · split <;> rfl

variable {names : List (List Char)}

theorem components_slash_slash (s : List Char) : components ('/' :: s) = components s := by
  have hcut : splitAt1 '/' ('/' :: s) = [] :: splitAt1 '/' s := splitAt1_append List.not_mem_nil s
  rw [components, hcut, List.foldl_cons]
  rfl

theorem components_names (h : ∀ p ∈ names, IsName p) : components ('/' :: joinWith ['/'] names) = names := by
  have hnames := components_ofNames h
  rwa [toList_ofNames] at hnames

theorem root_slash_names (h : ∀ p ∈ names, IsName p) :
    root ('/' :: '/' :: joinWith ['/'] names) = ['/', '/'] := by
  rcases joinWith_names h with hnil | ⟨c, r, hcons, hc⟩
  · rw [hnil]
    rfl
  · rw [hcons, root_slash_slash hc]

theorem root_eq_or {s : List Char} (h : s.head? = some '/') : root s = ['/'] ∨ root s = ['/', '/'] := by
  rw [root_of_absolute h, leading]
  split
  · exact .inr rfl
  · exact .inl rfl

/-- **A normal form is its own normal form.** -/
theorem normalize_normalize {s : List Char} (h : s.head? = some '/') : normalize (normalize s) = normalize s := by
  have hnames : ∀ p ∈ components s, IsName p := fun p hp => isName_of_mem_components hp
  rcases root_eq_or h with hroot | hroot
  · have hnormal : normalize s = '/' :: joinWith ['/'] (components s) := by
      rw [normalize, hroot]
      rfl
    rw [hnormal, normalize, root_ofNames hnames, components_names hnames]
    rfl
  · have hnormal : normalize s = '/' :: '/' :: joinWith ['/'] (components s) := by
      rw [normalize, hroot]
      rfl
    rw [hnormal, normalize, root_slash_names hnames, components_slash_slash, components_names hnames]
    rfl

theorem head?_normalize {s : List Char} (h : s.head? = some '/') : (normalize s).head? = some '/' := by
  unfold normalize
  rcases root_eq_or h with hroot | hroot
  · rw [hroot]
    rfl
  · rw [hroot]
    rfl

theorem toList_absolute (cwd path : String) :
    (absolute cwd path).toList = normalize (join cwd.toList path.toList) :=
  String.toList_ofList

/-- An absolute path in normal form is the same from every directory. -/
theorem absolute_absolute {cwd : String} (hcwd : cwd.toList.head? = some '/') (path other : String) :
    absolute other (absolute cwd path) = absolute cwd path := by
  have hjoined := head?_join hcwd path.toList
  obtain ⟨r, hr⟩ := List.head?_eq_some_iff.mp (head?_normalize hjoined)
  have hstays : join other.toList (absolute cwd path).toList = (absolute cwd path).toList := by
    rw [toList_absolute, hr]
    rfl
  show String.ofList (normalize (join other.toList (absolute cwd path).toList)) = _
  rw [hstays, toList_absolute, normalize_normalize hjoined]
  rfl

end Path

/-! ## Percent-encoding -/

namespace Uri

/-- A letter, a digit or a mark that stands for itself. -/
def IsPlain (c : Char) : Prop :=
  ('A' ≤ c ∧ c ≤ 'Z') ∨ ('a' ≤ c ∧ c ≤ 'z') ∨ ('0' ≤ c ∧ c ≤ '9') ∨ c ∈ ['_', '.', '-', '~', '/', ':']

/-- A hexadecimal digit, in upper case. -/
def IsHexDigit (c : Char) : Prop := ('0' ≤ c ∧ c ≤ '9') ∨ ('A' ≤ c ∧ c ≤ 'F')

/-- Texts of plain characters and of escapes with two digits. -/
inductive Encoded : List Char → Prop where
  | nil : Encoded []
  | plain {c : Char} {r : List Char} (hc : IsPlain c) (h : Encoded r) : Encoded (c :: r)
  | escape {a b : Char} {r : List Char} (ha : IsHexDigit a) (hb : IsHexDigit b) (h : Encoded r) :
      Encoded ('%' :: a :: b :: r)

section

variable {b : UInt8} {n : Nat}

theorem toNat_ofNat_byte (b : UInt8) : (Char.ofNat b.toNat).toNat = b.toNat := by
  have hb : b.toNat < 256 := b.toNat_lt
  exact toNat_ofNat (by omega)

theorem isPlain_of_isPlainByte (h : isPlainByte b = true) : IsPlain (Char.ofNat b.toNat) := by
  have key : ∀ n < 256, isPlainByte (UInt8.ofNat n) = true → IsPlain (Char.ofNat n) := by
    unfold IsPlain
    decide +kernel
  have hb := key b.toNat b.toNat_lt
  rw [UInt8.ofNat_toNat] at hb
  exact hb h

theorem isHexDigit_upperHexDigit : ∀ n < 16, IsHexDigit (upperHexDigit n) := by
  unfold IsHexDigit
  decide

theorem hexDigitValue?_upperHexDigit : ∀ n < 16, hexDigitValue? (upperHexDigit n) = some n := by decide

/-- What stands for itself is ASCII and no start of an escape. -/
theorem plain_bounds (h : isPlainByte b = true) : b.toNat < 128 ∧ Char.ofNat b.toNat ≠ '%' := by
  have hbounds : b.toNat < 128 ∧ b.toNat ≠ 37 := by
    simp only [isPlainByte, Bool.or_eq_true, Bool.and_eq_true, decide_eq_true_eq, beq_iff_eq] at h
    omega
  refine ⟨hbounds.1, fun heq => hbounds.2 ?_⟩
  rw [← toNat_ofNat_byte b, heq]
  rfl

theorem encoded_encodeByte {r : List Char} (b : UInt8) (h : Encoded r) : Encoded (encodeByte b ++ r) := by
  have hb : b.toNat < 256 := b.toNat_lt
  unfold encodeByte
  split
  · next hplain => exact .plain (isPlain_of_isPlainByte hplain) h
  · exact .escape (isHexDigit_upperHexDigit _ (by omega)) (isHexDigit_upperHexDigit _ (by omega)) h

theorem decode?_encodeByte (b : UInt8) (r : List Char) :
    decode? (encodeByte b ++ r) = (decode? r).map (b :: ·) := by
  have hb : b.toNat < 256 := b.toNat_lt
  unfold encodeByte
  split
  · next hplain =>
    obtain ⟨hascii, hpercent⟩ := plain_bounds hplain
    have hchar := toNat_ofNat_byte b
    rw [List.singleton_append, decode?.eq_def]
    dsimp only
    rw [if_neg hpercent, hchar, if_pos hascii, UInt8.ofNat_toNat]
  · rw [List.cons_append, List.cons_append, List.cons_append, List.nil_append, decode?.eq_def]
    dsimp only
    rw [if_pos rfl, hexDigitValue?_upperHexDigit _ (by omega), hexDigitValue?_upperHexDigit _ (by omega)]
    have hvalue : b.toNat / 16 * 16 + b.toNat % 16 = b.toNat := Nat.div_add_mod' b.toNat 16
    rw [Option.bind_eq_bind, Option.bind_some, Option.bind_some, hvalue, UInt8.ofNat_toNat]

end

theorem encoded_encode (bytes : Bytes) : Encoded (encode bytes) := by
  induction bytes with
  | nil => exact .nil
  | cons b bytes ih =>
    show Encoded (encodeByte b ++ encode bytes)
    exact encoded_encodeByte b ih

/-- **Bytes are read as they were written.** -/
theorem decode?_encode (bytes : Bytes) : decode? (encode bytes) = some bytes := by
  induction bytes with
  | nil =>
    show decode? [] = some []
    rw [decode?]
  | cons b bytes ih =>
    show decode? (encodeByte b ++ encode bytes) = _
    rw [decode?_encodeByte, ih]
    rfl

/-! ## File URIs -/

theorem toList_ofPath (cwd path : String) :
    (ofPath .slash cwd path).toList = fileScheme ++ encode (utf8Encode (Path.absolute cwd path).toList) :=
  String.toList_ofList

/-- The URI is that of the normal form, and says which one. -/
theorem ofPath_eq_iff {cwd path cwd' path' : String} :
    ofPath .slash cwd path = ofPath .slash cwd' path' ↔ Path.absolute cwd path = Path.absolute cwd' path' := by
  constructor
  · intro h
    have hlists := congrArg String.toList h
    rw [toList_ofPath, toList_ofPath] at hlists
    have hbytes := congrArg decode? (List.append_cancel_left hlists)
    rw [decode?_encode, decode?_encode] at hbytes
    have htexts := congrArg utf8Decode? (Option.some.inj hbytes)
    rw [utf8Decode?_utf8Encode, utf8Decode?_utf8Encode] at htexts
    exact String.toList_inj.mp (Option.some.inj htexts)
  · intro h
    apply String.toList_inj.mp
    rw [toList_ofPath, toList_ofPath, h]

/-- **File URIs are faithful.** Where paths are divided by slashes, whatever the path and the absolute
directory that it is seen from: its URI is the scheme and then a text of plain characters and escapes, and the
bytes that the text stands for are the path in normal form. The normal form is made of the leading slashes and
of the names to which the components of the path lead, one after another, from the root. Two paths have the
same URI exactly if they have the same normal form, and from every directory the normal form has the same URI
as the path. -/
theorem file_uri_faithful {cwd : String} (hcwd : cwd.toList.head? = some '/') (path : String) :
    (∃ written bytes, (ofPath .slash cwd path).toList = "file://".toList ++ written ∧ Encoded written ∧
      decode? written = some bytes ∧ utf8Decode? bytes = some (Path.absolute cwd path).toList) ∧
    Path.Normalizes (Path.join cwd.toList path.toList) (Path.absolute cwd path).toList ∧
    (∀ cwd' path' : String, ofPath .slash cwd path = ofPath .slash cwd' path' ↔
      Path.absolute cwd path = Path.absolute cwd' path') ∧
    ∀ cwd' : String, ofPath .slash cwd' (Path.absolute cwd path) = ofPath .slash cwd path := by
  refine ⟨?_, ?_, fun cwd' path' => ofPath_eq_iff, fun cwd' => ?_⟩
  · exact ⟨_, _, toList_ofPath cwd path, encoded_encode _, decode?_encode _, utf8Decode?_utf8Encode _⟩
  · rw [Path.toList_absolute]
    exact Path.normalizes_normalize (Path.head?_join hcwd path.toList)
  · exact ofPath_eq_iff.mpr (Path.absolute_absolute hcwd path cwd')

/-- A path that goes up and around, and the one that goes straight. -/
theorem roundabout_path_has_uri :
    "/home/me".toList.head? = some '/' ∧
      ofPath .slash "/home/me" "../you//./\u00e9 b" = "file:///home/you/%C3%A9%20b" ∧
      ofPath .slash "/home/me" "../you//./\u00e9 b" = ofPath .slash "/" "/home/you/\u00e9 b" := by
  have hcwd : "/home/me".toList.head? = some '/' := by decide
  obtain ⟨-, -, hsame, -⟩ := file_uri_faithful hcwd "../you//./\u00e9 b"
  exact ⟨hcwd, by decide +kernel, (hsame "/" "/home/you/\u00e9 b").mpr (by decide +kernel)⟩

end Uri

end EditorServices
