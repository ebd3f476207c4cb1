import Mathlib.Data.List.DropRight
import Mathlib.Data.List.Forall2
import AccessPolicy.Proofs.Symbols

/-!
# Closing parentheses that may go either way

A closing parenthesis at the end of a right side may belong to it or to a group, and that is all
the readings of a text differ in. `spread` gives every parenthesis back that a right side can do
without. Two scans of one text have the same spread (`Scans.spread_unique`), and two sequences with
the same spread are equal up to the first check where one keeps what the other gives back
(`eq_or_keeps_of_spread_eq`).
-/

namespace AccessPolicy

/-! ## Right sides -/

/-- What stays of a right side when it gives back whatever it can: its first character stays. -/
def stem : List Char → List Char
  | [] => []
  | c :: cs => c :: cs.rdropWhile (· == ')')

/-- How many closing parentheses a right side can give back. -/
def spareClosers : List Char → Nat
  | [] => 0
  | _ :: cs => (cs.rtakeWhile (· == ')')).length

theorem stem_append_closers (rhs : List Char) : stem rhs ++ closers (spareClosers rhs) = rhs := by
  cases rhs with
  | nil => rfl
  | cons c cs =>
    have hclosers : cs.rtakeWhile (· == ')') = closers (spareClosers (c :: cs)) := by
      rw [closers, List.eq_replicate_iff]
      exact ⟨rfl, fun d hd => by simpa using List.mem_rtakeWhile_imp hd⟩
    rw [stem, ← hclosers, List.cons_append, List.rdropWhile_append_rtakeWhile]

/-- Closing parentheses behind a right side do not change its stem. -/
theorem stem_append {rhs : List Char} (hne : rhs ≠ []) (n : Nat) :
    stem (rhs ++ closers n) = stem rhs := by
  obtain ⟨c, cs, rfl⟩ := List.exists_cons_of_ne_nil hne
  induction n with
  | zero => rw [closers, List.replicate_zero, List.append_nil]
  | succ n ih =>
    rw [closers_succ, ← List.append_assoc, List.cons_append, List.cons_append, stem,
      List.rdropWhile_concat_pos _ _ _ (by rfl), ← ih, List.cons_append, stem]

theorem stem_eq_of_append_eq {rhs rhs' : List Char} (hne : rhs ≠ []) (hne' : rhs' ≠ []) {n m : Nat}
    (h : rhs ++ closers n = rhs' ++ closers m) : stem rhs = stem rhs' := by
  rw [← stem_append hne n, h, stem_append hne' m]

theorem spareClosers_append {rhs : List Char} (hne : rhs ≠ []) (n : Nat) :
    spareClosers (rhs ++ closers n) = spareClosers rhs + n := by
  have hlen := congrArg List.length (stem_append_closers rhs)
  have hlen' := congrArg List.length (stem_append_closers (rhs ++ closers n))
  rw [stem_append hne] at hlen'
  simp only [List.length_append, List.length_replicate] at hlen hlen'
  omega

theorem stem_ne_nil {rhs : List Char} (hne : rhs ≠ []) : stem rhs ≠ [] := by
  obtain ⟨c, cs, rfl⟩ := List.exists_cons_of_ne_nil hne
  exact List.cons_ne_nil _ _

/-- What a right side can give back stands behind at least a character. -/
theorem exists_of_spareClosers {rhs : List Char} (h : 0 < spareClosers rhs) :
    ∃ rhs', rhs' ≠ [] ∧ rhs = rhs' ++ closers 1 := by
  obtain ⟨n, hn⟩ := Nat.exists_eq_add_of_lt h
  have hne : rhs ≠ [] := by
    intro hnil
    rw [hnil, spareClosers] at h
    exact Nat.lt_irrefl _ h
  refine ⟨stem rhs ++ closers n, by simp [stem_ne_nil hne], ?_⟩
  rw [List.append_assoc, ← closers_add, ← Nat.zero_add n, ← hn, stem_append_closers]

/-! ## Symbols -/

/-- The symbol when its right side gives back whatever it can. -/
def Symbol.stemmed : Symbol → Symbol
  | .check lhs rhs => .check lhs (stem rhs)
  | s => s

/-- How many closing parentheses a symbol can give back. -/
def Symbol.spare : Symbol → Nat
  | .check _ rhs => spareClosers rhs
  | _ => 0

/-- The symbols when every right side gives back whatever it can. -/
def spread (ss : List Symbol) : List Symbol :=
  ss.flatMap fun s => s.stemmed :: List.replicate s.spare .closing

/-- How many closing parentheses the symbols can give back. -/
def slack : List Symbol → Nat
  | [] => 0
  | s :: ss => s.spare + slack ss

@[simp] theorem spread_nil : spread [] = [] := rfl

theorem spread_cons (s : Symbol) (ss : List Symbol) :
    spread (s :: ss) = s.stemmed :: (List.replicate s.spare .closing ++ spread ss) := rfl

@[simp] theorem slack_nil : slack [] = 0 := rfl

@[simp] theorem slack_cons (s : Symbol) (ss : List Symbol) :
    slack (s :: ss) = s.spare + slack ss := rfl

@[simp] theorem slack_append (ss ts : List Symbol) : slack (ss ++ ts) = slack ss + slack ts := by
  induction ss with
  | nil => rw [List.nil_append, slack_nil, Nat.zero_add]
  | cons s ss ih => rw [List.cons_append, slack_cons, slack_cons, ih, Nat.add_assoc]

theorem slack_replicate_closing (n : Nat) : slack (List.replicate n .closing) = 0 := by
  induction n with
  | zero => rfl
  | succ n ih =>
    rw [List.replicate_succ, slack_cons, ih]
    rfl

/-- A stem has nothing to give back: it ends in no `)`, unless that is all of it. -/
theorem Symbol.spare_stemmed (s : Symbol) : s.stemmed.spare = 0 := by
  cases s with
  | check lhs rhs =>
    cases rhs with
    | nil => rfl
    | cons c cs =>
      rw [stemmed, spare, stem, spareClosers, List.length_eq_zero_iff, List.rtakeWhile_eq_nil_iff]
      intro hne
      exact List.rdropWhile_last_not _ _ hne
  | _ => rfl

theorem slack_spread (ss : List Symbol) : slack (spread ss) = 0 := by
  induction ss with
  | nil => rfl
  | cons s ss ih =>
    rw [spread_cons, slack_cons, slack_append, s.spare_stemmed, slack_replicate_closing, ih]

theorem count_opening_spread (ss : List Symbol) :
    (spread ss).count .opening = ss.count .opening := by
  induction ss with
  | nil => rfl
  | cons s ss ih =>
    have hstem : (s.stemmed == Symbol.opening) = (s == .opening) := by cases s <;> rfl
    rw [spread_cons, List.count_cons, List.count_append, List.count_replicate, ih, hstem,
      List.count_cons]
    simp

/-- What is given back is what is more in the spread. -/
theorem count_closing_spread (ss : List Symbol) :
    (spread ss).count .closing = ss.count .closing + slack ss := by
  induction ss with
  | nil => rfl
  | cons s ss ih =>
    have hstem : (s.stemmed == Symbol.closing) = (s == .closing) := by cases s <;> rfl
    rw [spread_cons, List.count_cons, List.count_append, List.count_replicate_self, ih, hstem,
      List.count_cons, slack_cons]
    omega

/-- Symbols that begin with a closing parenthesis in the spread begin with it as they are. -/
theorem cons_closing_of_spread {ss ts : List Symbol} (h : spread ss = .closing :: ts) :
    ∃ ss', ss = .closing :: ss' := by
  cases ss with
  | nil => cases h
  | cons s ss =>
    rw [spread_cons] at h
    have hstem := (List.cons.inj h).1
    cases s with
    | closing => exact ⟨ss, rfl⟩
    | _ => cases hstem

theorem Symbol.eq_of_stemmed {s s' : Symbol} (h : s.stemmed = s'.stemmed)
    (hspare : s.spare = s'.spare) : s = s' := by
  cases s with
  | check lhs rhs =>
    cases s' with
    | check lhs' rhs' =>
      obtain ⟨rfl, hstem⟩ := Symbol.check.inj h
      have hrhs := stem_append_closers rhs
      rw [show spareClosers rhs = spareClosers rhs' from hspare, hstem, stem_append_closers] at hrhs
      rw [hrhs]
    | _ => cases h
  | _ =>
    cases s' with
    | check => cases h
    | _ => exact h

/-- A symbol that has more to give back than another with the same stem keeps more. -/
theorem Symbol.keeps_of_stemmed {s s' : Symbol} {n : Nat} (h : s.stemmed = s'.stemmed)
    (hspare : s.spare = s'.spare + (n + 1)) :
    ∃ lhs rhs, s' = .check lhs rhs ∧ s = .check lhs (rhs ++ closers (n + 1)) := by
  cases s with
  | check lhs rhs =>
    cases s' with
    | check lhs' rhs' =>
      obtain ⟨rfl, hstem⟩ := Symbol.check.inj h
      refine ⟨lhs, rhs', rfl, ?_⟩
      have hrhs := stem_append_closers rhs
      rw [show spareClosers rhs = spareClosers rhs' + (n + 1) from hspare, hstem, closers,
        ← List.replicate_append_replicate, ← List.append_assoc, stem_append_closers] at hrhs
      rw [hrhs]
    | _ => cases h
  | _ => exact absurd hspare (by simp only [Symbol.spare]; omega)

/-- Up to the first check where they differ the symbols are the same, and there the first keep
closing parentheses that the second give back. -/
def KeepsFirst (ss ss' : List Symbol) : Prop :=
  ∃ before lhs rhs n after after', ss = before ++ .check lhs (rhs ++ closers (n + 1)) :: after ∧
    ss' = before ++ .check lhs rhs :: after' ∧
    spread after' = List.replicate (n + 1) .closing ++ spread after

theorem KeepsFirst.cons {ss ss' : List Symbol} (s : Symbol) (h : KeepsFirst ss ss') :
    KeepsFirst (s :: ss) (s :: ss') := by
  obtain ⟨before, lhs, rhs, n, after, after', rfl, rfl, hspread⟩ := h
  exact ⟨s :: before, lhs, rhs, n, after, after', rfl, rfl, hspread⟩

theorem KeepsFirst.here {s s' : Symbol} {ss ss' : List Symbol} {n : Nat}
    (hstem : s.stemmed = s'.stemmed) (hspare : s.spare = s'.spare + (n + 1))
    (h : List.replicate s.spare .closing ++ spread ss =
      List.replicate s'.spare .closing ++ spread ss') : KeepsFirst (s :: ss) (s' :: ss') := by
  obtain ⟨lhs, rhs, rfl, rfl⟩ := Symbol.keeps_of_stemmed hstem hspare
  refine ⟨[], lhs, rhs, n, ss, ss', rfl, rfl, ?_⟩
  rw [hspare, ← List.replicate_append_replicate, List.append_assoc] at h
  exact (List.append_cancel_left h).symm

/-- **The first difference.** Two sequences with the same spread are the same, or one of them keeps
more at the first check where they differ. -/
theorem eq_or_keeps_of_spread_eq {ss ss' : List Symbol} (h : spread ss = spread ss') :
    ss = ss' ∨ KeepsFirst ss ss' ∨ KeepsFirst ss' ss := by
  induction ss generalizing ss' with
  | nil =>
    cases ss' with
    | nil => exact Or.inl rfl
    | cons s' ss' => cases h
  | cons s ss ih =>
    cases ss' with
    | nil => cases h
    | cons s' ss' =>
      rw [spread_cons, spread_cons] at h
      obtain ⟨hstem, htail⟩ := List.cons.inj h
      -- the first symbols have one stem, so only what they keep of it can tell them apart
      rcases Nat.lt_trichotomy s.spare s'.spare with hlt | heq | hgt
      · obtain ⟨n, hn⟩ := Nat.exists_eq_add_of_lt hlt
        exact Or.inr (Or.inr (.here hstem.symm hn htail.symm))
      · obtain rfl := Symbol.eq_of_stemmed hstem heq
        rcases ih (List.append_cancel_left htail) with rfl | hkeeps | hkeeps
        · exact Or.inl rfl
        · exact Or.inr (Or.inl (hkeeps.cons s))
        · exact Or.inr (Or.inr (hkeeps.cons s))
      · obtain ⟨n, hn⟩ := Nat.exists_eq_add_of_lt hgt
        exact Or.inr (Or.inl (.here hstem hn htail))

/-! ## Scans -/

/-- A right side may give more back than it does. -/
theorem ReadsCheck.giveBack {cs rhs rest : List Char} {lhs : LeftSide} {n : Nat} (hne : rhs ≠ [])
    (h : ReadsCheck cs lhs (rhs ++ closers n) rest) :
    ReadsCheck cs lhs rhs (closers n ++ rest) := by
  generalize hrhs : rhs ++ closers n = longer at h
  cases h with
  | @intro _ written _ after given hlhs _ hrun hafter =>
    subst hrhs
    rw [List.append_assoc, ← List.append_assoc (closers n), ← closers_add]
    exact .intro hlhs hne (fun c hc => hrun c (List.mem_append_left _ hc)) hafter

/-- The checks at the head of a text have one left side, and their right sides end in one run. -/
theorem ReadsCheck.same_run {cs rhs rest rhs' rest' : List Char} {lhs lhs' : LeftSide}
    (h : ReadsCheck cs lhs rhs rest) (h' : ReadsCheck cs lhs' rhs' rest') :
    lhs = lhs' ∧ rhs ++ rest = rhs' ++ rest' ∧ stem rhs = stem rhs' := by
  generalize hcs : cs = text at h'
  cases h with
  | @intro _ written _ after given hlhs hne hrun hafter =>
    cases h' with
    | @intro _ written' _ after' given' hlhs' hne' hrun' hafter' =>
      have hleft := leftSide_written hlhs (rhs ++ (closers given ++ after))
      rw [hcs, leftSide_written hlhs'] at hleft
      obtain ⟨rfl, htail⟩ := Prod.mk.inj (Except.ok.inj hleft)
      have htail := (List.cons.inj htail).2
      refine ⟨rfl, htail.symm, ?_⟩
      -- the runs are the same; each right side is its run less closing parentheses
      have htake := congrArg (List.takeWhile fun c => !isBlank c) htail
      rw [(span_run hrun hafter).1, (span_run hrun' hafter').1] at htake
      exact stem_eq_of_append_eq hne hne' htake.symm

theorem scans_closers (n : Nat) (rest : List Char) :
    Scans .operator (closers n ++ rest) (List.replicate n .closing) .operator rest := by
  induction n with
  | zero => exact .nil
  | succ n ih => exact .cons (.closing (skipBlanks_cons rfl _)) ih

/-- A symbol may give back whatever it can. -/
theorem Lexes.spread {p q : Place} {cs rest : List Char} {s : Symbol} (h : Lexes p cs s q rest) :
    Scans p cs (s.stemmed :: List.replicate s.spare .closing) q rest := by
  cases h with
  | @check _ lhs rhs rest hnot hopen h =>
    have hne := h.ne_nil
    rw [← stem_append_closers rhs] at h
    exact .cons (.check hnot hopen (h.giveBack (stem_ne_nil hne))) (scans_closers _ rest)
  | not h => exact .single (.not h)
  | opening h => exact .single (.opening h)
  | allow h => exact .single (.allow h)
  | deny h => exact .single (.deny h)
  | closing h => exact .single (.closing h)
  | and h => exact .single (.and h)
  | or h => exact .single (.or h)

/-- With every right side giving back whatever it can, the text is scanned as far as before. -/
theorem Scans.spread {p q : Place} {cs rest : List Char} {ss : List Symbol}
    (h : Scans p cs ss q rest) : Scans p cs (spread ss) q rest := by
  induction h with
  | nil => exact .nil
  | cons hlex _ ih => exact hlex.spread.append ih

/-- Symbols that are taken at one place are the same if they have nothing to give back. -/
theorem Lexes.unique {p q q' : Place} {cs rest rest' : List Char} {s s' : Symbol}
    (h : Lexes p cs s q rest) (h' : Lexes p cs s' q' rest') (hs : s.spare = 0)
    (hs' : s'.spare = 0) : s = s' ∧ q = q' ∧ rest = rest' := by
  -- the character at the head of the text decides, but for two checks, which decide themselves
  cases h with
  | not hat =>
    have hnot : s' = .not := by
      by_contra hne
      exact h'.not_at hne _ hat
    subst hnot
    cases h' with
    | not hat' => exact ⟨rfl, rfl, (hat.unique hat').2⟩
  | opening hskip | allow hskip | deny hskip =>
    cases h' with
    | not hat' =>
      rw [hat'.skipBlanks_eq] at hskip
      cases hskip
    | opening hskip' | allow hskip' | deny hskip' =>
      rw [hskip] at hskip'
      cases hskip' <;> exact ⟨rfl, rfl, rfl⟩
    | check _ hopen _ =>
      rw [hskip] at hopen
      cases hopen _ rfl
  | @check _ lhs rhs rest hnot hopen hcheck =>
    cases h' with
    | not hat' => exact absurd hat' (hnot _)
    | opening hskip' | allow hskip' | deny hskip' =>
      rw [hskip'] at hopen
      cases hopen _ rfl
    | @check _ lhs' rhs' rest' _ _ hcheck' =>
      obtain ⟨rfl, hrun, hstem⟩ := hcheck.same_run hcheck'
      have hsym : Symbol.check lhs rhs = .check lhs rhs' :=
        Symbol.eq_of_stemmed (congrArg (Symbol.check lhs) hstem) (hs.trans hs'.symm)
      obtain ⟨-, rfl⟩ := Symbol.check.inj hsym
      exact ⟨rfl, rfl, List.append_cancel_left hrun⟩
  | closing hskip =>
    cases h' with
    | closing hskip' =>
      rw [hskip] at hskip'
      exact ⟨rfl, rfl, (List.cons.inj hskip').2⟩
    | and hat' | or hat' =>
      rw [hat'.skipBlanks_eq] at hskip
      cases hskip
  | and hat | or hat =>
    cases h' with
    | closing hskip' =>
      rw [hat.skipBlanks_eq] at hskip'
      cases hskip'
    | and hat' | or hat' =>
      obtain ⟨hk, hrest⟩ := hat.unique hat'
      cases hk <;> exact ⟨rfl, rfl, hrest⟩

theorem Lexes.not_blanks {q : Place} {cs rest : List Char} {s : Symbol}
    (h : Lexes .operator cs s q rest) : ¬ Blanks cs := by
  intro hblanks
  have hskip := blanks_iff.mp hblanks
  cases h with
  | closing h => simp [hskip] at h
  | and h | or h => simp [h.skipBlanks_eq, Keyword.chars] at hskip

/-- Two scans of a whole text are the same if they have nothing to give back. -/
theorem Scans.unique {p : Place} {cs rest rest' : List Char} {ss ss' : List Symbol}
    (h : Scans p cs ss .operator rest) (hrest : Blanks rest) (h' : Scans p cs ss' .operator rest')
    (hrest' : Blanks rest') (hslack : slack ss = 0) (hslack' : slack ss' = 0) : ss = ss' := by
  generalize hq : Place.operator = q at h
  induction h generalizing ss' with
  | nil =>
    subst hq
    cases h' with
    | nil => rfl
    | cons hlex _ => exact absurd hrest hlex.not_blanks
  | cons hlex _ ih =>
    cases h' with
    | nil => exact absurd hrest' hlex.not_blanks
    | cons hlex' hs' =>
      rw [slack_cons, Nat.add_eq_zero_iff] at hslack hslack'
      obtain ⟨rfl, rfl, rfl⟩ := hlex.unique hlex' hslack.1 hslack'.1
      rw [ih hrest hs' hslack.2 hslack'.2 hq]

/-- **Scans of one text.** They are the same but for closing parentheses that right sides keep. -/
theorem Scans.spread_unique {p : Place} {cs rest rest' : List Char} {ss ss' : List Symbol}
    (h : Scans p cs ss .operator rest) (hrest : Blanks rest) (h' : Scans p cs ss' .operator rest')
    (hrest' : Blanks rest') : AccessPolicy.spread ss = AccessPolicy.spread ss' :=
  h.spread.unique hrest h'.spread hrest' (slack_spread ss) (slack_spread ss')

/-! ## Readings -/

/-- The same checks but for closing parentheses at the end of their right sides. -/
def SameButClosers : List (LeftSide × List Char) → List (LeftSide × List Char) → Prop :=
  List.Forall₂ fun c c' =>
    c.1 = c'.1 ∧ ∃ rhs n n', c.2 = rhs ++ closers n ∧ c'.2 = rhs ++ closers n'

/-- What is made of the symbols is made of them with nothing to give back, if closing parentheses
do not count. -/
theorem filterMap_spread {α : Type} {f : Symbol → Option α} (hf : f .closing = none)
    (ss : List Symbol) : (spread ss).filterMap f = ss.filterMap fun s => f s.stemmed := by
  induction ss with
  | nil => rfl
  | cons s ss ih =>
    rw [spread_cons, List.filterMap_cons, List.filterMap_append,
      List.filterMap_replicate_of_none hf, List.nil_append, ih, List.filterMap_cons]

theorem checks_spread (ss : List Symbol) :
    (spread ss).filterMap Symbol.check? =
      (ss.filterMap Symbol.check?).map fun c => (c.1, stem c.2) := by
  rw [filterMap_spread rfl, List.map_filterMap]
  refine congrArg (List.filterMap · ss) (funext fun s => ?_)
  cases s <;> rfl

theorem sameButClosers_of_spread_eq {ss ss' : List Symbol} (h : spread ss = spread ss') :
    SameButClosers (ss.filterMap Symbol.check?) (ss'.filterMap Symbol.check?) := by
  have hmap := congrArg (List.filterMap Symbol.check?) h
  rw [checks_spread, checks_spread, ← List.forall₂_eq_eq_eq, List.forall₂_map_left_iff,
    List.forall₂_map_right_iff] at hmap
  refine List.Forall₂.imp ?_ hmap
  intro c c' heq
  obtain ⟨hlhs, hstem⟩ := Prod.mk.inj heq
  refine ⟨hlhs, stem c.2, spareClosers c.2, spareClosers c'.2, (stem_append_closers _).symm, ?_⟩
  rw [hstem, stem_append_closers]

/-- **Readings of one text.** They have the same checks, but for what the right sides give back. -/
theorem CompleteReading.sameButClosers {cs : List Char} {e e' : Expr} (h : CompleteReading cs e)
    (h' : CompleteReading cs e') : SameButClosers e.checks e'.checks := by
  obtain ⟨ss, rest, hscan, hrest, hform⟩ := completeReading_iff.mp h
  obtain ⟨ss', rest', hscan', hrest', hform'⟩ := completeReading_iff.mp h'
  rw [hform.checks_eq, hform'.checks_eq]
  exact sameButClosers_of_spread_eq (hscan.spread_unique hrest hscan' hrest')

end AccessPolicy
