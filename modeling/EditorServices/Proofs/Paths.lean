import EditorServices.FileTree
import Mathlib.Data.List.Infix

/-!
# `Proofs.Paths` — absolute paths in normal form

The normal form of an absolute path is a row of names after one slash. On such paths the functions of `Path`
do what their names say, and what is found in a file tree under one is found at that place.

## Contents
- **Normal form.** `Path.IsName`, `Path.ofNames`, and `exists_names_of_resolve?`.
- **Parts.** Components, children and ancestors of a path in normal form, which can be told from it.
- **File trees.** `isFile_of_findFrom`.
-/

namespace EditorServices

/-! ## Normal form -/

namespace Path

/-- What a component of a path in normal form is: no way to stay or to go up, and without a slash. -/
structure IsName (part : List Char) : Prop where
  nonempty : part ≠ []
  not_dot : part ≠ ['.']
  not_dots : part ≠ ['.', '.']
  slashless : '/' ∉ part

/-- The path of a row of names from the root on. -/
def ofNames (names : List (List Char)) : String := String.ofList ('/' :: joinWith ['/'] names)

theorem toList_ofNames (names : List (List Char)) : (ofNames names).toList = '/' :: joinWith ['/'] names :=
  String.toList_ofList

/-- A name starts with another character than a slash. -/
theorem IsName.exists_cons {part : List Char} (h : IsName part) : ∃ c r, part = c :: r ∧ c ≠ '/' := by
  cases part with
  | nil => exact absurd rfl h.nonempty
  | cons c r => exact ⟨c, r, rfl, fun hc => h.slashless (hc ▸ List.mem_cons_self)⟩

variable {names : List (List Char)}

/-- So does a row of names, unless it is empty. -/
theorem joinWith_names (h : ∀ p ∈ names, IsName p) :
    joinWith ['/'] names = [] ∨ ∃ c r, joinWith ['/'] names = c :: r ∧ c ≠ '/' := by
  cases names with
  | nil => exact .inl rfl
  | cons p ps =>
    obtain ⟨c, r, rfl, hc⟩ := (h p List.mem_cons_self).exists_cons
    refine .inr ?_
    cases ps with
    | nil => exact ⟨c, r, rfl, hc⟩
    | cons q qs => exact ⟨c, r ++ '/' :: joinWith ['/'] (q :: qs), joinWith_cons (by simp), hc⟩

theorem root_ofNames (h : ∀ p ∈ names, IsName p) : root ('/' :: joinWith ['/'] names) = ['/'] := by
  rcases joinWith_names h with hnil | ⟨c, r, hcons, hc⟩
  · rw [hnil]
    rfl
  · rw [hcons]
    unfold root
    split <;> simp_all

theorem collapsed_ofNames (h : ∀ p ∈ names, IsName p) :
    collapsed ('/' :: joinWith ['/'] names) = '/' :: joinWith ['/'] names := by
  rcases joinWith_names h with hnil | ⟨c, r, hcons, hc⟩
  · rw [hnil]
    rfl
  · rw [hcons]
    unfold collapsed
    split <;> simp_all

/-- What components leave on the stack are names. -/
theorem isName_of_pushComponent {stack : List (List Char)} {part : List Char} (h : ∀ p ∈ stack, IsName p)
    (hpart : '/' ∉ part) : ∀ p ∈ pushComponent stack part, IsName p := by
  unfold pushComponent
  split
  · exact h
  · next hnot =>
    split
    · exact fun p hp => h p (List.mem_of_mem_tail hp)
    · next hdots =>
      rw [not_or] at hnot
      intro p hp
      rcases List.mem_cons.mp hp with rfl | hp
      · exact ⟨hnot.1, hnot.2, hdots, hpart⟩
      · exact h p hp

theorem isName_of_mem_components {s p : List Char} (h : p ∈ components s) : IsName p := by
  have hall : ∀ (parts stack : List (List Char)), (∀ p ∈ stack, IsName p) → (∀ p ∈ parts, '/' ∉ p) →
      ∀ p ∈ parts.foldl pushComponent stack, IsName p := by
    intro parts
    induction parts with
    | nil => exact fun stack hstack _ => hstack
    | cons part parts ih =>
      intro stack hstack hparts
      exact ih _ (isName_of_pushComponent hstack (hparts part List.mem_cons_self))
        fun p hp => hparts p (List.mem_cons_of_mem _ hp)
  exact hall _ [] (fun p hp => by cases hp) (fun p hp => not_mem_of_mem_splitAt1 hp) p (List.mem_reverse.mp h)

/-- **A path seen from an absolute directory resolves to a row of names.** -/
theorem exists_names_of_resolve? {cwd path dir : String} (hcwd : cwd.toList.head? = some '/')
    (h : resolve? cwd path = some dir) : ∃ names, dir = ofNames names ∧ ∀ p ∈ names, IsName p := by
  unfold resolve? at h
  split at h
  · cases h
  · cases h
    refine ⟨components (join cwd.toList path.toList), ?_, fun p hp => isName_of_mem_components hp⟩
    have habsolute : (join cwd.toList path.toList).head? = some '/' := by
      unfold join
      split
      · next heq => rw [heq]; rfl
      · obtain ⟨r, hr⟩ := List.head?_eq_some_iff.mp hcwd
        rw [hr]
        split <;> rfl
    unfold absolute normalize ofNames
    rw [String.toList_ofList]
    congr 1
    generalize hs : join cwd.toList path.toList = s at habsolute ⊢
    have hnames : ∀ p ∈ components s, IsName p := fun p hp => isName_of_mem_components hp
    obtain ⟨r, rfl⟩ := List.head?_eq_some_iff.mp habsolute
    -- one slash or two are left of those at the front
    have hroot : root ('/' :: r) = ['/'] ∨ root ('/' :: r) = ['/', '/'] := by
      unfold root
      split <;> simp_all
    rcases hroot with hroot | hroot
    · rw [hroot]
      exact collapsed_ofNames hnames
    · rw [hroot]
      rfl

/-! ## Parts -/

/-- Names go onto the stack one by one. -/
theorem foldl_pushComponent (h : ∀ p ∈ names, IsName p) (stack : List (List Char)) :
    names.foldl pushComponent stack = names.reverse ++ stack := by
  induction names generalizing stack with
  | nil => rfl
  | cons p ps ih =>
    have hp := h p List.mem_cons_self
    have hpush : pushComponent stack p = p :: stack := by
      unfold pushComponent
      rw [if_neg (not_or.mpr ⟨hp.nonempty, hp.not_dot⟩), if_neg hp.not_dots]
    rw [List.foldl_cons, hpush, ih fun q hq => h q (List.mem_cons_of_mem _ hq)]
    simp

/-- The root is before the first slash; without names nothing is after it. -/
theorem splitAt1_ofNames (h : ∀ p ∈ names, IsName p) :
    splitAt1 '/' ('/' :: joinWith ['/'] names) = [] :: if names = [] then [[]] else names := by
  have hcut : splitAt1 '/' ('/' :: joinWith ['/'] names) = [] :: splitAt1 '/' (joinWith ['/'] names) :=
    splitAt1_append List.not_mem_nil _
  rw [hcut]
  split
  · next hnil =>
    subst hnil
    rfl
  · next hne => rw [splitAt1_joinWith hne fun p hp => (h p hp).slashless]

@[simp] theorem components_ofNames (h : ∀ p ∈ names, IsName p) : components (ofNames names).toList = names := by
  rw [toList_ofNames, components, splitAt1_ofNames h]
  split
  · next hnil =>
    subst hnil
    rfl
  · rw [List.foldl_cons]
    exact List.reverse_eq_iff.mpr ((foldl_pushComponent h []).trans (List.append_nil _))

theorem tidy_ofNames (h : ∀ p ∈ names, IsName p) :
    String.ofList (tidy (ofNames names).toList) = ofNames names := by
  have hparts : ((splitAt1 '/' (ofNames names).toList).filter fun p => p ≠ [] ∧ p ≠ ['.']) = names := by
    rw [toList_ofNames, splitAt1_ofNames h]
    split
    · next hnil =>
      subst hnil
      rfl
    · rw [List.filter_cons_of_neg (by simp)]
      exact List.filter_eq_self.mpr fun p hp => by simp [(h p hp).nonempty, (h p hp).not_dot]
  unfold tidy
  dsimp only
  rw [hparts, toList_ofNames, root_ofNames h]
  exact congrArg String.ofList (if_neg (List.cons_ne_nil _ _))

theorem join_of_name {dir name : List Char} (hname : IsName name) :
    join dir name = if dir = [] ∨ dir.getLast? = some '/' then dir ++ name else dir ++ '/' :: name := by
  obtain ⟨c, r, rfl, hc⟩ := hname.exists_cons
  unfold join
  split
  · next heq => exact absurd (List.cons.inj heq).1 hc
  · rfl

/-- A name inside a directory comes last. -/
theorem child_ofNames (h : ∀ p ∈ names, IsName p) {name : String} (hname : IsName name.toList) :
    child (ofNames names) name = ofNames (names ++ [name.toList]) := by
  unfold child
  rw [toList_ofNames, join_of_name hname]
  rcases List.eq_nil_or_concat names with rfl | ⟨init, last, rfl⟩
  · rfl
  · rw [List.concat_eq_append] at h ⊢
    have hlast := h last (by simp)
    have hne : init ++ [last] ≠ [] := List.concat_ne_nil last init
    -- the last character is that of a name
    have hnoslash : ('/' :: joinWith ['/'] (init ++ [last])).getLast? ≠ some '/' := by
      have hends : ∃ before, '/' :: joinWith ['/'] (init ++ [last]) = before ++ last := by
        rcases List.eq_nil_or_concat init with rfl | ⟨_, _, hinit⟩
        · exact ⟨['/'], rfl⟩
        · rw [joinWith_concat (by simp [hinit])]
          exact ⟨'/' :: joinWith ['/'] init ++ ['/'], by simp⟩
      obtain ⟨before, hbefore⟩ := hends
      rw [hbefore, List.getLast?_append, List.getLast?_eq_some_getLast hlast.nonempty, Option.some_or,
        ne_eq, Option.some.injEq]
      exact fun hend => hlast.slashless (hend ▸ List.getLast_mem hlast.nonempty)
    rw [if_neg (not_or.mpr ⟨List.cons_ne_nil _ _, hnoslash⟩), ofNames, joinWith_concat hne]
    rfl

/-- The names of a path in normal form can be told from it. -/
theorem ofNames_inj {a b : List (List Char)} (ha : ∀ p ∈ a, IsName p) (hb : ∀ p ∈ b, IsName p)
    (h : ofNames a = ofNames b) : a = b := by
  rw [← components_ofNames ha, ← components_ofNames hb, h]

/-- So the directory and the name of a file can be told from its path. -/
theorem child_ofNames_inj {a b : List (List Char)} (ha : ∀ p ∈ a, IsName p) (hb : ∀ p ∈ b, IsName p)
    {file other : String} (hfile : IsName file.toList) (hother : IsName other.toList)
    (h : child (ofNames a) file = child (ofNames b) other) : a = b := by
  have hextended : ∀ {names : List (List Char)} {name : List Char}, (∀ p ∈ names, IsName p) → IsName name →
      ∀ p ∈ names ++ [name], IsName p := by
    intro names name hnames hname p hp
    rcases List.mem_append.mp hp with hp | hp
    · exact hnames p hp
    · rwa [List.mem_singleton.mp hp]
  rw [child_ofNames ha hfile, child_ofNames hb hother] at h
  exact (List.append_inj' (ofNames_inj (hextended ha hfile) (hextended hb hother) h) rfl).1

/-- The path of a file ends with its name. -/
theorem suffix_child (d : String) {name : String} (hname : IsName name.toList) :
    name.toList <:+ (child d name).toList := by
  unfold child
  rw [String.toList_ofList, join_of_name hname]
  split
  · exact List.suffix_append _ _
  · exact (List.suffix_cons _ _).trans (List.suffix_append _ _)

/-- The ancestors of a directory are the beginnings of its row of names. -/
theorem reverse_ancestors_ofNames (h : ∀ p ∈ names, IsName p) :
    (ancestors (ofNames names)).reverse = names.inits.map ofNames := by
  unfold ancestors
  dsimp only
  rw [components_ofNames h, toList_ofNames, root_ofNames h]
  apply List.ext_getElem
  · simp
  · intro i hleft hright
    simp at hleft hright
    have hlength : names.length - (names.length - i) = i := by omega
    simp [List.getElem_inits, hlength, ofNames]

end Path

/-! ## File trees -/

namespace FileTree

variable {t : FileTree} {names : List (List Char)} {p : String}

/-- Going along names leads to the names gone along. -/
theorem eq_ofNames_of_walk {above : List (List Char)} (habove : ∀ p ∈ above, Path.IsName p)
    (h : ∀ p ∈ names, Path.IsName p) (hwalk : t.walk (Path.ofNames above) names = some p) :
    p = Path.ofNames (above ++ names) := by
  induction names generalizing above with
  | nil =>
    cases hwalk
    rw [List.append_nil]
  | cons part rest ih =>
    have hpart := h part List.mem_cons_self
    have henter : enter (Path.ofNames above) part = Path.ofNames (above ++ [part]) := by
      unfold enter
      rw [if_neg (not_or.mpr ⟨hpart.nonempty, hpart.not_dot⟩), if_neg hpart.not_dots,
        Path.child_ofNames habove (by rwa [String.toList_ofList]), String.toList_ofList]
    unfold walk at hwalk
    split at hwalk
    · rw [henter] at hwalk
      have hnext : ∀ q ∈ above ++ [part], Path.IsName q := by
        intro q hq
        rcases List.mem_append.mp hq with hq | hq
        · exact habove q hq
        · rwa [List.mem_singleton.mp hq]
      rw [ih hnext (fun q hq => h q (List.mem_cons_of_mem _ hq)) hwalk, List.append_assoc]
      rfl
    · cases hwalk

/-- A path in normal form leads nowhere but to itself. -/
theorem eq_of_locate? {cwd : String} (h : ∀ p ∈ names, Path.IsName p)
    (hlocate : t.locate? cwd (Path.ofNames names) = some p) : p = Path.ofNames names := by
  have hjoin : Path.join cwd.toList (Path.ofNames names).toList = '/' :: joinWith ['/'] names := by
    rw [Path.toList_ofNames]
    rfl
  have hroot : enter "/" [] = Path.ofNames [] := rfl
  unfold locate? at hlocate
  split at hlocate
  · cases hlocate
  · rw [hjoin, Path.splitAt1_ofNames h] at hlocate
    unfold walk at hlocate
    split at hlocate
    · rw [hroot] at hlocate
      split at hlocate
      · next hnil =>
        subst hnil
        unfold walk at hlocate
        split at hlocate
        · cases hlocate
          rfl
        · cases hlocate
      · exact eq_ofNames_of_walk (fun q hq => by cases hq) h hlocate
    · cases hlocate

theorem isFile_of_find {path : String} {bytes : Bytes} (h : t.find path = .file bytes) : t.isFile path = true := by
  unfold find at h
  unfold isFile
  split at h
  · next hget => rw [hget]
  · cases h
  · cases h
  · split at h <;> cases h

/-- **What is found as a file under a path in normal form is a file of the tree.** -/
theorem isFile_of_findFrom {cwd : String} {bytes : Bytes} (h : ∀ p ∈ names, Path.IsName p)
    (hfound : t.findFrom cwd (Path.ofNames names) = .file bytes) : t.isFile (Path.ofNames names) = true := by
  unfold findFrom at hfound
  split at hfound
  · cases hfound
  · split at hfound
    · cases hfound
    · split at hfound
      · next p hlocate =>
        rw [eq_of_locate? h hlocate] at hfound
        exact isFile_of_find hfound
      · cases hfound

end FileTree

end EditorServices
