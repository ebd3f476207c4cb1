import AccessPolicy.Disk
import Mathlib.Data.List.Basic

/-!
# Where a path leads

A path is written down again from its names, without the empty ones and the dots. Main statement
`FileTree.find?_text`: in a tree of files this makes no difference to what the path leads to. The
names that are left out do not move the place at which one is (`follow_shown`), but each of them
asks for a directory there. So what is written may lead somewhere where the path does not
(a slash behind the name of a file), and never the other way around.
-/

namespace AccessPolicy

/-! ## Names -/

/-- Whether a name is written, where a path is. -/
def isShown (name : String) : Bool := name ≠ "" ∧ name ≠ "."

namespace Path

theorem not_mem_of_mem_splitOn {α : Type} [BEq α] [LawfulBEq α] (a : α) (xs : List α) :
    ∀ l ∈ xs.splitOn a, a ∉ l := by
  induction xs with
  | nil => simp
  | cons x xs ih =>
    rw [List.splitOn_cons_eq_if_modifyHead]
    split
    next =>
      intro l hl
      rcases List.mem_cons.mp hl with rfl | hl
      · exact List.not_mem_nil
      · exact ih l hl
    next hx =>
      cases hsplit : xs.splitOn a with
      | nil => simp
      | cons w ws =>
        rw [hsplit, List.forall_mem_cons] at ih
        rw [List.modifyHead_cons, List.forall_mem_cons]
        refine ⟨?_, ih.2⟩
        rw [List.mem_cons, not_or]
        exact ⟨fun heq => hx (by rw [heq, beq_self_eq_true]), ih.1⟩

theorem splitNames_ne_nil (text : String) : splitNames text ≠ [] :=
  fun h => List.splitOn_ne_nil _ _ (List.map_eq_nil_iff.mp h)

theorem not_mem_of_mem_splitNames {name text : String} (h : name ∈ splitNames text) :
    '/' ∉ name.toList := by
  obtain ⟨cs, hcs, rfl⟩ := List.mem_map.mp h
  rw [String.toList_ofList]
  exact not_mem_of_mem_splitOn '/' text.toList cs hcs

/-- Names without slashes are found again between slashes. -/
theorem splitNames_intercalate {names : List String} (hne : names ≠ [])
    (h : ∀ name ∈ names, '/' ∉ name.toList) : splitNames ("/".intercalate names) = names := by
  have hchars : ∀ cs ∈ names.map String.toList, '/' ∉ cs := by
    rw [List.forall_mem_map]
    exact h
  rw [splitNames, String.toList_intercalate]
  change (List.splitOn '/' (['/'].intercalate (names.map String.toList))).map String.ofList = names
  rw [List.splitOn_intercalate '/' hchars (mt List.map_eq_nil_iff.mp hne), List.map_map]
  simp

/-- A slash in front is an empty name more. -/
theorem splitNames_slash (text : String) : splitNames ("/" ++ text) = "" :: splitNames text := by
  rw [splitNames, String.toList_append]
  change (List.splitOn '/' ('/' :: text.toList)).map String.ofList = _
  rw [List.splitOn_cons_eq_if_modifyHead, if_pos (beq_self_eq_true '/')]
  rfl

/-- Names that are written, and do not fall apart where they are read again. -/
def Proper (p : Path) : Prop := ∀ name ∈ p.names, isShown name ∧ '/' ∉ name.toList

theorem ofString_proper (text : String) : (ofString text).Proper := by
  intro name hname
  obtain ⟨hmem, hshown⟩ := List.mem_filter.mp hname
  exact ⟨hshown, not_mem_of_mem_splitNames hmem⟩

variable {p : Path}

theorem text_of_ne (h : p.root.text ++ "/".intercalate p.names ≠ "") :
    p.text = p.root.text ++ "/".intercalate p.names :=
  if_neg h

theorem text_ne_empty (p : Path) : p.text ≠ "" := by
  unfold text
  dsimp only
  split
  next => decide
  next h => exact h

/-- What is written has the names of the path, and in front of them only what is left out. -/
theorem splitNames_text (h : p.Proper) :
    ∃ left, (∀ name ∈ left, isShown name = false) ∧ splitNames p.text = left ++ p.names := by
  obtain ⟨root, names⟩ := p
  by_cases hnames : names = []
  · subst hnames
    cases root with
    | here => exact ⟨["."], by decide, by decide⟩
    | slash => exact ⟨["", ""], by decide, by decide⟩
    | doubleSlash => exact ⟨["", "", ""], by decide, by decide⟩
  · have hread := splitNames_intercalate hnames fun name hmem => (h name hmem).2
    cases root with
    | here =>
      have hne : "/".intercalate names ≠ "" := by
        intro hempty
        rw [hempty] at hread
        have hshown := (h "" (hread ▸ by decide)).1
        exact absurd hshown (by decide)
      refine ⟨[], nofun, ?_⟩
      rw [text_of_ne (by simpa [PathRoot.text] using hne)]
      simpa [PathRoot.text] using hread
    | slash =>
      refine ⟨[""], by decide, ?_⟩
      rw [text_of_ne (by simp [PathRoot.text])]
      change splitNames ("/" ++ "/".intercalate names) = _
      rw [splitNames_slash, hread]
      rfl
    | doubleSlash =>
      refine ⟨["", ""], by decide, ?_⟩
      rw [text_of_ne (by simp [PathRoot.text])]
      change splitNames ("/" ++ "/" ++ "/".intercalate names) = _
      rw [String.append_assoc, splitNames_slash, splitNames_slash, hread]
      rfl

theorem head?_intercalate {name : String} (h : name ≠ "") (names : List String) :
    ("/".intercalate (name :: names)).toList.head? = name.toList.head? := by
  have hne : name.toList ≠ [] := mt String.toList_eq_nil_iff.mp h
  rw [String.toList_intercalate, List.map_cons]
  cases names with
  | nil => rw [List.map_nil, List.intercalate_singleton]
  | cons name' names =>
    rw [List.map_cons, List.intercalate_cons_cons, List.append_assoc,
      List.head?_append_of_ne_nil _ hne]

/-- A slash is in front of what is written exactly where the path starts with one. -/
theorem head?_text (h : p.Proper) : p.text.toList.head? = some '/' ↔ p.root ≠ .here := by
  obtain ⟨root, names⟩ := p
  cases root with
  | slash =>
    rw [text_of_ne (by simp [PathRoot.text])]
    simp [PathRoot.text]
  | doubleSlash =>
    rw [text_of_ne (by simp [PathRoot.text])]
    simp [PathRoot.text]
  | here =>
    refine iff_of_false ?_ (not_not_intro rfl)
    cases names with
    | nil => decide
    | cons name names =>
      obtain ⟨hshown, hslash⟩ := h name List.mem_cons_self
      have hname : name ≠ "" := by
        rintro rfl
        exact absurd hshown (by decide)
      have hhead := head?_intercalate hname names
      have hwritten : PathRoot.here.text ++ "/".intercalate (name :: names) =
          "/".intercalate (name :: names) := String.empty_append
      have hne : PathRoot.here.text ++ "/".intercalate (name :: names) ≠ "" := by
        rw [hwritten]
        intro hempty
        rw [hempty] at hhead
        exact hname (String.toList_eq_nil_iff.mp (List.head?_eq_none_iff.mp hhead.symm))
      rw [text_of_ne hne, hwritten, hhead]
      exact fun heq => hslash (List.mem_of_mem_head? heq)

theorem ofChars_ne_here {cs : List Char} : PathRoot.ofChars cs ≠ .here ↔ cs.head? = some '/' := by
  cases cs with
  | nil => decide
  | cons c cs =>
    by_cases hc : c = '/'
    · subst hc
      refine iff_of_true ?_ rfl
      unfold PathRoot.ofChars
      rw [List.takeWhile_cons_of_pos (by decide), List.length_cons]
      split <;> simp_all
    · refine iff_of_false ?_ (by simpa using hc)
      unfold PathRoot.ofChars
      rw [List.takeWhile_cons_of_neg (by simpa using hc)]
      exact not_not_intro rfl

end Path

/-! ## Places -/

namespace FileTree

variable (t : FileTree)

@[simp] theorem find?_disk (path : String) : t.disk.find? path = t.find? path := rfl

/-- Names lead somewhere only from a directory. -/
theorem isDirectory_of_follow {place q : List String} {names : List String} (hne : names ≠ [])
    (h : t.follow place names = some q) : t.entryAt place = some .directory := by
  cases names with
  | nil => exact absurd rfl hne
  | cons name names =>
    unfold follow at h
    split at h
    next hdir => exact hdir
    next => cases h

/-- In a directory, a name that is not written leads nowhere else. -/
theorem follow_cons_of_not_isShown {place : List String} {name : String}
    (hdir : t.entryAt place = some .directory) (hname : isShown name = false)
    (names : List String) : t.follow place (name :: names) = t.follow place names := by
  have hblank : name = "" ∨ name = "." := by
    by_contra hnot
    rw [not_or] at hnot
    exact absurd (decide_eq_true hnot) (by rw [← isShown, hname]; exact Bool.false_ne_true)
  rw [follow, hdir]
  exact if_pos hblank

theorem follow_append_of_not_isShown {place : List String} {left : List String}
    (hdir : t.entryAt place = some .directory) (hleft : ∀ name ∈ left, isShown name = false)
    (names : List String) : t.follow place (left ++ names) = t.follow place names := by
  induction left with
  | nil => rfl
  | cons name left ih =>
    rw [List.forall_mem_cons] at hleft
    rw [List.cons_append, t.follow_cons_of_not_isShown hdir hleft.1, ih hleft.2]

/-- The names that are written lead to where all of them lead. -/
theorem follow_shown {place q : List String} {names : List String}
    (h : t.follow place names = some q) : t.follow place (names.filter isShown) = some q := by
  induction names generalizing place with
  | nil => exact h
  | cons name names ih =>
    have hdir := t.isDirectory_of_follow (List.cons_ne_nil _ _) h
    cases hname : isShown name with
    | false =>
      rw [t.follow_cons_of_not_isShown hdir hname] at h
      rw [List.filter_cons_of_neg (by rw [hname]; exact Bool.false_ne_true)]
      exact ih h
    | true =>
      rw [List.filter_cons_of_pos hname]
      rw [follow, hdir] at h ⊢
      dsimp only at h ⊢
      split
      next => rw [if_pos ‹_›] at h; exact ih h
      next hshown =>
        rw [if_neg hshown] at h
        split
        next => rw [if_pos ‹_›] at h; exact ih h
        next => rw [if_neg ‹_›] at h; exact ih h

/-- What a path leads to is found by the path as it is written. -/
theorem find?_text {file : String} {entry : DiskEntry} (h : t.find? file = some entry) :
    t.find? (Path.ofString file).text = some entry := by
  have hproper := Path.ofString_proper file
  obtain ⟨left, hleft, hnames⟩ := Path.splitNames_text hproper
  have hhead : (Path.ofString file).text.toList.head? = some '/' ↔ file.toList.head? = some '/' :=
    (Path.head?_text hproper).trans Path.ofChars_ne_here
  unfold find? at h ⊢
  split at h
  next => cases h
  next =>
    rw [if_neg (Path.text_ne_empty _)]
    simp only [hhead, hnames]
    obtain ⟨place, hplace, hentry⟩ := Option.bind_eq_some_iff.mp h
    -- there is a name to be sought, so the start is a directory and what is written may begin there
    have hdir := t.isDirectory_of_follow (Path.splitNames_ne_nil file) hplace
    rw [t.follow_append_of_not_isShown hdir hleft]
    exact Option.bind_eq_some_iff.mpr ⟨place, t.follow_shown hplace, hentry⟩

/-- A slash behind the name of a file is not written, and asks for a directory where it stands. -/
example : let t : FileTree := ⟨["home"], [(["home", "p.yaml"], .empty)]⟩
    (t.find? "p.yaml/").isNone ∧ (t.find? (Path.ofString "./p.yaml/").text).isSome := by
  decide

end FileTree
end AccessPolicy
