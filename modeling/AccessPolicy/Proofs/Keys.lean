import AccessPolicy.Document.Load
import AccessPolicy.Loader
import Mathlib.Data.List.Basic

/-!
# Keys of mappings

In the value of a document, every mapping binds its keys once. Main statement:
`bindsOnceWithin_of_load`.

Keys are bound one after the other when a mapping is made (`Value.bindsOnce_bind`), and nothing
changes what a mapping is made into. So it is an invariant of the assembly that what is made so far
is in order (`Assembly.Sound`): one lemma for each step, then for all steps of a run.
-/

namespace AccessPolicy.Document

/-- Where something comes of two steps, something comes of the first. -/
theorem exists_of_bind_eq_ok {ε α β : Type} {x : Except ε α} {f : α → Except ε β} {b : β}
    (h : (x >>= f) = .ok b) : ∃ a, x = .ok a ∧ f a = .ok b := by
  cases x with
  | error e => cases h
  | ok a => exact ⟨a, rfl, h⟩

namespace Value

theorem mem_bind {α : Type} {key k : Value} {value x : α} {entries : List (Value × α)}
    (h : (k, x) ∈ bind key value entries) : k = key ∨ k ∈ entries.map Prod.fst := by
  induction entries with
  | nil => exact Or.inl (congrArg Prod.fst (List.mem_singleton.mp h))
  | cons entry entries ih =>
    obtain ⟨k', v⟩ := entry
    rw [bind] at h
    rw [List.map_cons, List.mem_cons]
    split at h
    next =>
      rcases List.mem_cons.mp h with heq | hmem
      · exact Or.inr (Or.inl (congrArg Prod.fst heq))
      · exact Or.inr (Or.inr (List.mem_map.mpr ⟨_, hmem, rfl⟩))
    next =>
      rcases List.mem_cons.mp h with heq | hmem
      · exact Or.inr (Or.inl (congrArg Prod.fst heq))
      · exact (ih hmem).imp_right Or.inr

/-- A key is bound in its place or as the last one, so never a second time. -/
theorem bindsOnce_bind {α : Type} {entries : List (Value × α)} (h : BindsOnce entries)
    (key : Value) (value : α) : BindsOnce (bind key value entries) := by
  induction entries with
  | nil => exact List.pairwise_singleton _ _
  | cons entry entries ih =>
    obtain ⟨k, v⟩ := entry
    obtain ⟨hhead, htail⟩ := List.pairwise_cons.mp h
    rw [bind]
    split
    next => exact List.pairwise_cons.mpr ⟨hhead, htail⟩
    next hnew =>
      refine List.pairwise_cons.mpr ⟨fun ⟨k', x⟩ hmem => ?_, ih htail⟩
      rcases mem_bind hmem with rfl | hold
      · exact Bool.eq_false_iff.mpr hnew
      · obtain ⟨old, hmem', rfl⟩ := List.mem_map.mp hold
        exact hhead old hmem'

end Value

/-! ## Parts -/

/-- The keys may be keys, and no two are the same. -/
structure Keyed {α : Type} (entries : List (Value × α)) : Prop where
  once : BindsOnce entries
  isKey : ∀ key ∈ entries.map Prod.fst, key.isKey = true

theorem Keyed.nil {α : Type} : Keyed ([] : List (Value × α)) := ⟨.nil, nofun⟩

theorem Keyed.bind {α : Type} {entries : List (Value × α)} (h : Keyed entries) {key : Value}
    (hkey : key.isKey = true) (value : α) : Keyed (Value.bind key value entries) := by
  refine ⟨Value.bindsOnce_bind h.once key value, fun k hk => ?_⟩
  obtain ⟨⟨k', x⟩, hmem, rfl⟩ := List.mem_map.mp hk
  rcases Value.mem_bind hmem with rfl | hold
  · exact hkey
  · exact h.isKey _ hold

/-- The part is in order: keys and scalars are no collections, and a mapping binds a key once. -/
def Part.IsSound : Part → Prop
  | .scalar v => v.isKey = true
  | .mapping entries => Keyed entries
  | .keys ks => ∀ key ∈ ks, key.isKey = true
  | _ => True

theorem isKey_of_readScalar {tag : Tag} {origin : Nat} {text : String} {v : Value}
    (h : readScalar tag origin text = .ok v) : v.isKey = true := by
  have hmap {α : Type} {r : Except Malformed α} {f : α → Value} (hf : ∀ a, (f a).isKey = true)
      (hr : r.map f = .ok v) : v.isKey = true := by
    cases r with
    | error e => cases hr
    | ok a =>
      cases hr
      exact hf a
  unfold readScalar at h
  split at h
  next => cases h; rfl
  next => cases h; rfl
  next => exact hmap (fun _ => rfl) h
  next => exact hmap (fun _ => rfl) h
  next => exact hmap (fun _ => rfl) h
  next => exact hmap (fun _ => rfl) h
  next =>
    split at h
    next => exact hmap (fun _ => rfl) h
    next => cases h
  next => cases h

namespace Assembly

variable {a a' : Assembly}

/-- Whatever is made is in order. -/
def Sound (a : Assembly) : Prop := ∀ place part, a.part? place = some part → part.IsSound

theorem sound_start (nodes : Nodes) : (start nodes).Sound := by
  intro place part h
  rw [part?, start] at h
  dsimp only at h
  rw [Array.getElem?_replicate] at h
  split at h
  next => cases h
  next => cases h

theorem Sound.setPart (h : a.Sound) (place : Nat) {part : Part} (hpart : part.IsSound) :
    (a.setPart place part).Sound := by
  intro place' part' h'
  rw [part?, Assembly.setPart, Array.getElem?_setIfInBounds] at h'
  split at h'
  next =>
    split at h'
    next =>
      cases h'
      exact hpart
    next => cases h'
  next => exact h place' part' h'

theorem Sound.make (h : a.Sound) {place : Nat} (hmake : a.make place = .ok a') : a'.Sound := by
  have hwaiting : (a.setPart place .waiting).Sound := h.setPart place trivial
  unfold Assembly.make at hmake
  split at hmake
  next =>
    cases hmake
    exact h
  next =>
    split at hmake
    next => cases hmake; exact hwaiting
    next => cases hmake; exact hwaiting
    next => cases hmake; exact hwaiting
    next => cases hmake; exact hwaiting
    next =>
      obtain ⟨text, -, hmake⟩ := exists_of_bind_eq_ok hmake
      split at hmake
      next => cases hmake
      next =>
        obtain ⟨v, hv, hmake⟩ := exists_of_bind_eq_ok hmake
        cases hmake
        exact h.setPart place (isKey_of_readScalar hv)

theorem Sound.makeAll (h : a.Sound) {items : List Nat}
    (hmake : items.foldlM Assembly.make a = .ok a') : a'.Sound := by
  induction items generalizing a with
  | nil =>
    cases hmake
    exact h
  | cons item items ih =>
    rw [List.foldlM_cons] at hmake
    obtain ⟨a₁, h₁, hmake⟩ := exists_of_bind_eq_ok hmake
    exact ih (h.make h₁) hmake

theorem Sound.isKey_of_keyAt (h : a.Sound) {place : Nat} {key : Value}
    (hkey : a.keyAt place = .ok key) : key.isKey = true := by
  unfold Assembly.keyAt at hkey
  split at hkey
  next v hpart =>
    cases hkey
    exact h place _ hpart
  next => cases hkey

theorem Sound.makeEntries (h : a.Sound) {entries : List (Nat × Nat)}
    {bound bound' : List (Value × Nat)} (hbound : Keyed bound)
    (hmake : a.makeEntries bound entries = .ok (a', bound')) : a'.Sound ∧ Keyed bound' := by
  induction entries generalizing a bound with
  | nil =>
    cases hmake
    exact ⟨h, hbound⟩
  | cons entry entries ih =>
    obtain ⟨key, value⟩ := entry
    rw [Assembly.makeEntries] at hmake
    obtain ⟨a₁, h₁, hmake⟩ := exists_of_bind_eq_ok hmake
    obtain ⟨k, hk, hmake⟩ := exists_of_bind_eq_ok hmake
    obtain ⟨a₂, h₂, hmake⟩ := exists_of_bind_eq_ok hmake
    have hkey := (h.make h₁).isKey_of_keyAt hk
    exact ih ((h.make h₁).make h₂) (hbound.bind hkey value) hmake

theorem Sound.makePairs (h : a.Sound) {items : List Nat} {pairs pairs' : List (Nat × Nat)}
    (hmake : a.makePairs pairs items = .ok (a', pairs')) : a'.Sound := by
  induction items generalizing a pairs with
  | nil =>
    cases hmake
    exact h
  | cons item items ih =>
    rw [Assembly.makePairs] at hmake
    split at hmake
    next =>
      obtain ⟨a₁, h₁, hmake⟩ := exists_of_bind_eq_ok hmake
      obtain ⟨a₂, h₂, hmake⟩ := exists_of_bind_eq_ok hmake
      exact ih ((h.make h₁).make h₂) hmake
    next => cases hmake

/-- Filling in a collection keeps what is made in order. -/
theorem Sound.fill (h : a.Sound) {place : Nat} (hfill : a.fill place = .ok a') : a'.Sound := by
  unfold Assembly.fill at hfill
  split at hfill
  next =>
    obtain ⟨a₁, h₁, hfill⟩ := exists_of_bind_eq_ok hfill
    cases hfill
    exact (h.makeAll h₁).setPart place trivial
  next =>
    obtain ⟨⟨a₁, pairs⟩, h₁, hfill⟩ := exists_of_bind_eq_ok hfill
    cases hfill
    exact (h.makePairs h₁).setPart place trivial
  next tag _ =>
    split at hfill
    next =>
      obtain ⟨nodes, -, hfill⟩ := exists_of_bind_eq_ok hfill
      obtain ⟨⟨a₁, entries⟩, h₁, hfill⟩ := exists_of_bind_eq_ok hfill
      cases hfill
      -- other nodes with the same parts
      have hnodes : ({ a with nodes } : Assembly).Sound := h
      obtain ⟨hsound, hentries⟩ := hnodes.makeEntries .nil h₁
      refine hsound.setPart place ?_
      split
      next => exact hentries.isKey
      next => exact hentries
    next => cases hfill
  next => cases hfill

theorem Sound.fillFrom (h : a.Sound) {fuel next : Nat}
    (hfill : Assembly.fillFrom fuel next a = .ok a') : a'.Sound := by
  induction fuel generalizing next a with
  | zero =>
    cases hfill
    exact h
  | succ fuel ih =>
    unfold Assembly.fillFrom at hfill
    split at hfill
    next =>
      cases hfill
      exact h
    next place _ =>
      obtain ⟨a₁, h₁, hfill⟩ := exists_of_bind_eq_ok hfill
      exact ih (h.fill h₁) hfill

theorem sound_of_ofNodes {nodes : Nodes} {root : Nat} (h : ofNodes nodes root = .ok a) :
    a.Sound := by
  obtain ⟨a₁, h₁, h⟩ := exists_of_bind_eq_ok h
  exact ((sound_start nodes).make h₁).fillFrom h

/-! ## Values -/

/-- A mapping is shown where one is made, with what is shown for its values. -/
theorem Sound.mapping_of_view (h : a.Sound) {depth place : Nat} {entries : List (Value × Value)}
    (hview : a.view depth place = .mapping entries) :
    ∃ depth' made, Keyed made ∧
      entries = made.map fun (key, value) => (key, a.view depth' value) := by
  have hscalar : ∀ v, a.part? place = some (.scalar v) → v ≠ .mapping entries := by
    rintro v hpart rfl
    cases h place _ hpart
  cases depth with
  | zero =>
    unfold view at hview
    split at hview
    next v hpart => exact absurd hview (hscalar v hpart)
    next => cases hview
  | succ depth =>
    unfold view at hview
    split at hview
    next v hpart => exact absurd hview (hscalar v hpart)
    next => cases hview
    next made hpart =>
      cases hview
      exact ⟨depth, made, h place _ hpart, rfl⟩
    all_goals cases hview

/-- The items of a sequence that is shown are shown themselves, or have no parts. -/
theorem Sound.item_of_view (h : a.Sound) {depth place : Nat} {items : List Value}
    (hview : a.view depth place = .sequence items) {x : Value} (hmem : x ∈ items) :
    (∃ depth' place', a.view depth' place' = x) ∨ x.isKey = true ∨ x = .deeper := by
  have hscalar : ∀ v, a.part? place = some (.scalar v) → v ≠ .sequence items := by
    rintro v hpart rfl
    cases h place _ hpart
  cases depth with
  | zero =>
    unfold view at hview
    split at hview
    next v hpart => exact absurd hview (hscalar v hpart)
    next => cases hview
  | succ depth =>
    unfold view at hview
    split at hview
    next v hpart => exact absurd hview (hscalar v hpart)
    next =>
      cases hview
      obtain ⟨place', -, rfl⟩ := List.mem_map.mp hmem
      exact Or.inl ⟨depth, place', rfl⟩
    next => cases hview
    next keys hpart =>
      cases hview
      exact Or.inr (Or.inl (h place _ hpart x hmem))
    next =>
      cases hview
      obtain ⟨-, -, rfl⟩ := List.mem_map.mp hmem
      exact Or.inr (Or.inr rfl)
    all_goals cases hview

theorem not_mapping_within {entries : List (Value × Value)} {x : Value}
    (h : x.isKey = true ∨ x = .deeper) : ¬ Within (.mapping entries) x := by
  rintro ⟨⟩ <;> simp [Value.isKey] at h

/-- Keys are bound once wherever something is shown. -/
theorem Sound.bindsOnceWithin_view (h : a.Sound) (depth place : Nat) :
    BindsOnceWithin (a.view depth place) := by
  intro entries hwithin
  generalize hview : a.view depth place = v at hwithin
  induction hwithin generalizing depth place with
  | here =>
    obtain ⟨depth', made, hmade, rfl⟩ := h.mapping_of_view hview
    exact List.pairwise_map.mpr hmade.once
  | item hmem hwithin ih =>
    rcases h.item_of_view hview hmem with ⟨depth', place', hitem⟩ | hflat
    · exact ih depth' place' hitem
    · exact absurd hwithin (not_mapping_within hflat)
  | key hmem hwithin =>
    obtain ⟨depth', made, hmade, rfl⟩ := h.mapping_of_view hview
    obtain ⟨entry, hentry, heq⟩ := List.mem_map.mp hmem
    cases heq
    -- a key is no collection, so no mapping is within it
    have hkey := hmade.isKey entry.1 (List.mem_map.mpr ⟨entry, hentry, rfl⟩)
    exact absurd hwithin (not_mapping_within (Or.inl hkey))
  | value hmem hwithin ih =>
    obtain ⟨depth', made, -, rfl⟩ := h.mapping_of_view hview
    obtain ⟨entry, -, heq⟩ := List.mem_map.mp hmem
    cases heq
    exact ih depth' entry.2 rfl

end Assembly

/-- **Keys.** In the value of a document, no mapping binds a key twice. -/
theorem bindsOnceWithin_of_load {depth : Nat} {text : String} {v : Value}
    (h : load depth text = .ok v) : BindsOnceWithin v := by
  obtain ⟨cs, -, h⟩ := exists_of_bind_eq_ok h
  obtain ⟨tree, -, h⟩ := exists_of_bind_eq_ok h
  split at h
  next =>
    cases h
    rintro entries ⟨⟩
  next root _ =>
    obtain ⟨a, ha, h⟩ := exists_of_bind_eq_ok h
    cases h
    exact (Assembly.sound_of_ofNodes ha).bindsOnceWithin_view depth root

end AccessPolicy.Document
