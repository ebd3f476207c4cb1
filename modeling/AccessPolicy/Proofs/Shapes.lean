import AccessPolicy.Policy
import AccessPolicy.Proofs.BulkUpdates

/-!
# What shapes make of documents

A loader that does what loaders have in common (`Loader.Documented`) accepts exactly those values
that a shape is written as, and says of all others everything that is wrong with them, each thing
once and in the order of the document. This is so for any shape, as long as nothing in the value is
converted (`Loader.Verbatim`). Main statements: `Loader.Documented.validate_eq_ok_iff`, about what
is accepted and what becomes of it, and `Loader.Documented.reports_validate`, about the rest.

Both go by recursion on the shape, and neither form that they compare with knows of loaders: the
value that a shape is written as (`Shape.written`) and the list of what is wrong (`Shape.report`).
What one part adds to the other is settled for the ways of putting checks together (`both`,
`collect`), apart from shapes.
-/

namespace AccessPolicy

open Document (Value BindsOnce BindsOnceWithin)

variable {α β γ : Type}

/-! ## Checks put together -/

theorem map_eq_ok_iff {ε : Type} {f : α → β} {x : Except ε α} {b : β} :
    x.map f = .ok b ↔ ∃ a, x = .ok a ∧ f a = b := by
  cases x <;> simp [Except.map]

theorem mapError_eq_ok_iff {ε δ : Type} {f : ε → δ} {x : Except ε α} {a : α} :
    x.mapError f = .ok a ↔ x = .ok a := by
  cases x <;> simp [Except.mapError]

theorem within_eq_ok_iff {place : List PlaceStep} {r : Checked α} {a : α} :
    within place r = .ok a ↔ r = .ok a :=
  mapError_eq_ok_iff

theorem both_eq_ok_iff {f : α → β → γ} {r : Checked α} {r' : Checked β} {c : γ} :
    both f r r' = .ok c ↔ ∃ a b, r = .ok a ∧ r' = .ok b ∧ f a b = c := by
  cases r <;> cases r' <;> simp [both]

theorem collect_cons_eq_ok_iff {r : Checked α} {rs : List (Checked α)} {as : List α} :
    collect (r :: rs) = .ok as ↔ ∃ a rest, r = .ok a ∧ collect rs = .ok rest ∧ a :: rest = as :=
  both_eq_ok_iff

/-- The check finds these violations and no others, and finds nothing exactly if it accepts. -/
inductive Reports : Checked α → List Violation → Prop
  | fine (a : α) : Reports (.ok a) []
  | wrong {found : List Violation} (h : found ≠ []) : Reports (.error found) found

namespace Reports

variable {r : Checked α} {r' : Checked β} {found found' : List Violation}

theorem exists_ok_iff (h : Reports r found) : (∃ a, r = .ok a) ↔ found = [] := by
  cases h with
  | fine a => simp
  | wrong hne => simp [hne]

theorem eq_error (h : Reports r found) (hne : found ≠ []) : r = .error found := by
  cases h with
  | fine a => exact absurd rfl hne
  | wrong => rfl

theorem map (h : Reports r found) (f : α → β) : Reports (r.map f) found := by
  cases h with
  | fine a => exact .fine (f a)
  | wrong hne => exact .wrong hne

theorem within (h : Reports r found) (place : List PlaceStep) :
    Reports (within place r) (found.map (Violation.within place)) := by
  cases h with
  | fine a => exact .fine a
  | wrong hne => exact .wrong fun hnil => hne (List.map_eq_nil_iff.mp hnil)

theorem both (h : Reports r found) (h' : Reports r' found') (f : α → β → γ) :
    Reports (both f r r') (found ++ found') := by
  cases h with
  | fine a =>
    cases h' with
    | fine b => exact .fine (f a b)
    | wrong hne => exact .wrong hne
  | wrong hne =>
    have happend : found ++ found' ≠ [] := fun hnil => hne (List.append_eq_nil_iff.mp hnil).1
    cases h' with
    | fine b => exact .wrong happend
    | wrong => exact .wrong happend

theorem collect {check : β → Checked α} {report : β → List Violation} {xs : List β}
    (h : ∀ x ∈ xs, Reports (check x) (report x)) :
    Reports (collect (xs.map check)) (xs.flatMap report) := by
  induction xs with
  | nil => exact .fine []
  | cons x xs ih =>
    rw [List.forall_mem_cons] at h
    rw [List.flatMap_cons]
    exact h.1.both (ih h.2) List.cons

theorem checkItems {item : Value → Checked α} {report : Value → List Violation}
    {items : List Value} (h : ∀ x ∈ items, Reports (item x) (report x)) :
    Reports (checkItems item items) (items.zipIdx.flatMap fun (x, index) =>
      (report x).map (Violation.within [.number index])) :=
  collect fun (x, _) hmem => (h x (List.fst_mem_of_mem_zipIdx hmem)).within _

theorem checkEntries {key : Value → Checked String} {value : Value → Checked α}
    {keyReport report : Value → List Violation} {entries : List (Value × Value)}
    (h : ∀ k x, (k, x) ∈ entries → Reports (key k) (keyReport k) ∧ Reports (value x) (report x)) :
    Reports (checkEntries key value entries) (entries.flatMap fun (k, x) =>
      (keyReport k).map (Violation.within [PlaceStep.ofKey k, .key]) ++
        (report x).map (Violation.within [PlaceStep.ofKey k])) :=
  (collect fun (k, x) hmem =>
    ((h k x hmem).1.within _).both ((h k x hmem).2.within _) Prod.mk).map Dict.ofList

end Reports

/-! ## What is accepted -/

/-- If items are accepted as they are written, so are lists of them. -/
theorem checkItems_eq_ok_iff {item : Value → Checked α} {written : α → Value} {items : List Value}
    (h : ∀ x ∈ items, ∀ a, item x = .ok a ↔ x = written a) {as : List α} :
    checkItems item items = .ok as ↔ items = as.map written := by
  -- the index of an item goes into what is wrong with it, and not into what is made of it
  unfold checkItems
  generalize (0 : Nat) = index
  induction items generalizing index as with
  | nil => cases as <;> simp [collect]
  | cons x items ih =>
    rw [List.forall_mem_cons] at h
    rw [List.zipIdx_cons, List.map_cons, collect_cons_eq_ok_iff]
    simp only [within_eq_ok_iff, h.1, ih h.2]
    cases as with
    | nil => simp
    | cons a as => simp [and_comm]

theorem collect_entries_eq_ok_iff {key : Value → Checked String} {value : Value → Checked α}
    {written : α → Value} {entries : List (Value × Value)}
    (h : ∀ k x, (k, x) ∈ entries →
      (∀ s, key k = .ok s ↔ k = .text s) ∧ ∀ a, value x = .ok a ↔ x = written a)
    {pairs : List (String × α)} :
    collect (entries.map fun (k, x) => both Prod.mk (within [PlaceStep.ofKey k, .key] (key k))
      (within [PlaceStep.ofKey k] (value x))) = .ok pairs ↔
    entries = pairs.map fun (name, a) => (.text name, written a) := by
  induction entries generalizing pairs with
  | nil => cases pairs <;> simp [collect]
  | cons entry entries ih =>
    obtain ⟨k, x⟩ := entry
    obtain ⟨hk, hx⟩ := h k x List.mem_cons_self
    have hrest := fun k x hmem => h k x (List.mem_cons_of_mem _ hmem)
    rw [List.map_cons, collect_cons_eq_ok_iff]
    simp only [both_eq_ok_iff, within_eq_ok_iff, hk, hx, ih hrest]
    constructor
    · rintro ⟨-, rest, ⟨name, a, rfl, rfl, rfl⟩, rfl, rfl⟩
      rfl
    · intro heq
      cases pairs with
      | nil => cases heq
      | cons pair pairs =>
        obtain ⟨⟨rfl, rfl⟩, rfl⟩ : (k = .text pair.1 ∧ x = written pair.2) ∧ entries = _ := by
          simpa using heq
        exact ⟨_, _, ⟨_, _, rfl, rfl, rfl⟩, rfl, rfl⟩

/-- The names of entries are distinct if the keys that they are written as are. -/
theorem nodup_of_bindsOnce {pairs : List (String × α)} {written : α → Value}
    (h : BindsOnce (pairs.map fun (name, a) => (Value.text name, written a))) :
    (pairs.map Prod.fst).Nodup := by
  refine List.pairwise_map.mpr ((List.pairwise_map.mp h).imp ?_)
  intro a b hsame heq
  have hkey : (a.1 == b.1) = false := hsame
  rw [heq, beq_self_eq_true] at hkey
  cases hkey

/-- If values are accepted as they are written, so are mappings of texts to them, which keep the
order of their entries. -/
theorem checkEntries_eq_ok_iff {key : Value → Checked String} {value : Value → Checked α}
    {written : α → Value} {entries : List (Value × Value)} (honce : BindsOnce entries)
    (h : ∀ k x, (k, x) ∈ entries →
      (∀ s, key k = .ok s ↔ k = .text s) ∧ ∀ a, value x = .ok a ↔ x = written a) {d : Dict α} :
    checkEntries key value entries = .ok d ↔
      entries = d.entries.map fun (name, a) => (.text name, written a) := by
  rw [checkEntries, map_eq_ok_iff]
  simp only [collect_entries_eq_ok_iff h]
  constructor
  · rintro ⟨pairs, rfl, rfl⟩
    -- no name is bound a second time, so every pair stays as it is and where it is
    have hentries := congrArg Dict.entries (Dict.ofList_entries ⟨pairs, nodup_of_bindsOnce honce⟩)
    dsimp only at hentries
    rw [hentries]
  · exact fun heq => ⟨d.entries, heq, Dict.ofList_entries d⟩

/-! ## Shapes -/

/-- What is wrong with a value that should be a text. -/
def textReport : Value → List Violation
  | .text _ => []
  | v => [⟨.ofNoText v, []⟩]

/-- What is wrong with a value that should be a path. -/
def pathReport : Value → List Violation
  | .text _ => []
  | _ => [⟨.notPath, []⟩]

namespace Shape

/-- The value that something is written as. -/
def written : {α : Type} → Shape α → α → Value
  | _, .text, s => .text s
  | _, .path, s => .text s
  | _, .list item, as => .sequence (as.map item.written)
  | _, .mapping value, d => .mapping (d.entries.map fun (name, a) => (.text name, value.written a))

/-- Everything that is wrong with a value that should have a shape. -/
def report : {α : Type} → Shape α → Value → List Violation
  | _, .text, v => textReport v
  | _, .path, v => pathReport v
  | _, .list item, v =>
    match v with
    | .sequence items => items.zipIdx.flatMap fun (x, index) =>
        (item.report x).map (Violation.within [.number index])
    | _ => [⟨.notSequence, []⟩]
  | _, .mapping value, v =>
    match v with
    | .mapping entries => entries.flatMap fun (key, x) =>
        (textReport key).map (Violation.within [PlaceStep.ofKey key, .key]) ++
          (value.report x).map (Violation.within [PlaceStep.ofKey key])
    | _ => [⟨.notMapping, []⟩]

end Shape

namespace Loader

variable {L : Loader}

theorem Verbatim.of_mem_sequence {items : List Value} (h : L.Verbatim (.sequence items)) {x : Value}
    (hmem : x ∈ items) : L.Verbatim x :=
  fun y hwithin => h y (.item hmem hwithin)

theorem Verbatim.of_mem_mapping {entries : List (Value × Value)} (h : L.Verbatim (.mapping entries))
    {key x : Value} (hmem : (key, x) ∈ entries) : L.Verbatim key ∧ L.Verbatim x :=
  ⟨fun y hwithin => h y (.key hmem hwithin), fun y hwithin => h y (.value hmem hwithin)⟩

namespace Documented

variable (hL : L.Documented)
include hL

theorem reports_text {v : Value} (hv : L.Verbatim v) :
    Reports (L.validate .text v) (textReport v) := by
  cases v with
  | text s =>
    rw [hL.text]
    exact .fine s
  | _ =>
    rw [(hv _ .here nofun).1]
    exact .wrong (List.cons_ne_nil _ _)

/-- **What is wrong.** The check of a shape finds what is wrong, and nothing else. -/
theorem reports_validate (shape : Shape α) {v : Value} (hv : L.Verbatim v) :
    Reports (L.validate shape v) (shape.report v) := by
  induction shape generalizing v with
  | text => exact hL.reports_text hv
  | path =>
    cases v with
    | text s =>
      rw [hL.path]
      exact .fine s
    | _ =>
      rw [(hv _ .here nofun).2]
      exact .wrong (List.cons_ne_nil _ _)
  | list item ih =>
    cases v with
    | sequence items =>
      rw [hL.list]
      exact .checkItems fun x hmem => ih (hv.of_mem_sequence hmem)
    | _ =>
      -- no other value is a sequence
      rw [hL.notList]
      · exact .wrong (List.cons_ne_nil _ _)
      · nofun
  | mapping value ih =>
    cases v with
    | mapping entries =>
      rw [hL.mapping]
      exact .checkEntries fun k x hmem =>
        ⟨hL.reports_text (hv.of_mem_mapping hmem).1, ih (hv.of_mem_mapping hmem).2⟩
    | _ =>
      -- no other value is a mapping
      rw [hL.notMapping]
      · exact .wrong (List.cons_ne_nil _ _)
      · nofun

theorem text_eq_ok_iff {v : Value} (hv : L.Verbatim v) {s : String} :
    L.validate .text v = .ok s ↔ v = .text s := by
  cases v with
  | text t => simp [hL.text]
  | _ => simp [(hv _ .here nofun).1]

/-- **What is accepted.** A value is accepted as what it is written from, and as nothing else. -/
theorem validate_eq_ok_iff (shape : Shape α) {v : Value} (hv : L.Verbatim v)
    (honce : BindsOnceWithin v) {a : α} : L.validate shape v = .ok a ↔ v = shape.written a := by
  induction shape generalizing v with
  | text => exact hL.text_eq_ok_iff hv
  | path =>
    cases v with
    | text s => simp [hL.path, Shape.written]
    | _ => simp [(hv _ .here nofun).2, Shape.written]
  | list item ih =>
    cases v with
    | sequence items =>
      have hitems : ∀ x ∈ items, ∀ a, L.validate item x = .ok a ↔ x = item.written a :=
        fun x hmem _ => ih (hv.of_mem_sequence hmem) fun _ hwithin => honce _ (.item hmem hwithin)
      rw [hL.list, checkItems_eq_ok_iff hitems, Shape.written, Value.sequence.injEq]
    | _ =>
      rw [hL.notList]
      · simp [Shape.written]
      · nofun
  | mapping value ih =>
    cases v with
    | mapping entries =>
      have hentries : ∀ k x, (k, x) ∈ entries → (∀ s, L.validate .text k = .ok s ↔ k = .text s) ∧
          ∀ a, L.validate value x = .ok a ↔ x = value.written a := fun k x hmem =>
        ⟨fun _ => hL.text_eq_ok_iff (hv.of_mem_mapping hmem).1,
          fun _ => ih (hv.of_mem_mapping hmem).2 fun _ hwithin => honce _ (.value hmem hwithin)⟩
      rw [hL.mapping, checkEntries_eq_ok_iff (honce _ .here) hentries, Shape.written,
        Value.mapping.injEq]
    | _ =>
      rw [hL.notMapping]
      · simp [Shape.written]
      · nofun

end Documented
end Loader
end AccessPolicy
