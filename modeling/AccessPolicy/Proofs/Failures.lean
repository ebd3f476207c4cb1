import AccessPolicy.Expr.Parse
import AccessPolicy.Proofs.Nesting
import AccessPolicy.Proofs.Progress

/-!
# Where readings fail

Every failure is reported at a place that a scan of the text comes to, and what the scan has taken
until then is the beginning of a rule (`readings_nested`). Either an operand is due there and none
can be taken, or an operator is due and the one that would be needed does not stand there (`Stops`).

Scans of one text go one way but for closing parentheses, so what is reached by one of them lies on
the way of the other. Main statement: `rest_eq_of_failures`, failures that are only blanks apart
are at one place. A check that goes wrong at the end of a word never competes with what was
expected behind the blanks that follow.
-/

namespace AccessPolicy

variable {p q q' r : Place} {n m k : Nat} {cs ds mid mid' rest : List Char} {ss ts : List Symbol}
  {f g : Failure}

/-! ## Progress of a scan -/

theorem skipBlanks_suffix (cs : List Char) : skipBlanks cs <:+ cs :=
  List.dropWhile_suffix _

theorem Keyword.At.of_skipBlanks_eq {k : Keyword} (h : k.At cs rest)
    (hskip : skipBlanks ds = skipBlanks cs) : k.At ds rest := by
  rw [← accept_eq_some_iff, ← accept_skipBlanks] at h ⊢
  rwa [hskip]

/-- Blanks in front of a text do not matter to what is taken there. -/
theorem Lexes.of_skipBlanks_eq {s : Symbol} (h : Lexes p cs s q rest)
    (hskip : skipBlanks ds = skipBlanks cs) : Lexes p ds s q rest := by
  cases h with
  | not hat => exact .not (hat.of_skipBlanks_eq hskip)
  | opening h => exact .opening (hskip.trans h)
  | allow h => exact .allow (hskip.trans h)
  | deny h => exact .deny (hskip.trans h)
  | check hnot hopen h =>
    refine .check (fun rest' hat => hnot rest' (hat.of_skipBlanks_eq hskip.symm)) ?_ ?_
    · rwa [hskip]
    · rwa [hskip]
  | closing h => exact .closing (hskip.trans h)
  | and hat => exact .and (hat.of_skipBlanks_eq hskip)
  | or hat => exact .or (hat.of_skipBlanks_eq hskip)

/-- A symbol takes at least a character behind the blanks. -/
theorem Lexes.exists_written {s : Symbol} (h : Lexes p cs s q rest) :
    ∃ c written, skipBlanks cs = c :: (written ++ rest) := by
  cases h with
  | not hat | and hat | or hat => exact ⟨_, _, hat.skipBlanks_eq⟩
  | opening h | allow h | deny h | closing h => exact ⟨_, [], h⟩
  | @check _ _ rhs _ _ hopen h =>
    clear hopen
    generalize skipBlanks cs = text at h ⊢
    obtain ⟨hlhs, -, -, -⟩ := h
    obtain ⟨c, more, rfl⟩ := List.exists_cons_of_ne_nil hlhs.ne_nil
    exact ⟨c, more ++ ':' :: rhs, by simp⟩

theorem Lexes.length_lt {s : Symbol} (h : Lexes p cs s q rest) :
    rest.length < (skipBlanks cs).length := by
  obtain ⟨c, written, hskip⟩ := h.exists_written
  rw [hskip, List.length_cons, List.length_append]
  omega

theorem Scans.suffix (h : Scans p cs ss q rest) : rest <:+ cs := by
  induction h with
  | nil => exact List.suffix_refl _
  | @cons _ cs _ _ mid _ _ _ hlex _ ih =>
    obtain ⟨c, written, hskip⟩ := hlex.exists_written
    have hmid : mid <:+ skipBlanks cs := ⟨c :: written, hskip.symm⟩
    exact ih.trans (hmid.trans (skipBlanks_suffix cs))

/-- Two scans that give back whatever they can go the same way: one of them goes on where the other
ends. -/
theorem Scans.goesOn {ss' : List Symbol} (h : Scans p cs ss q mid) (h' : Scans p cs ss' q' mid')
    (hslack : slack ss = 0) (hslack' : slack ss' = 0) :
    (∃ ts, Scans q mid ts q' mid') ∨ ∃ ts, Scans q' mid' ts q mid := by
  induction h generalizing ss' with
  | nil => exact Or.inl ⟨ss', h'⟩
  | cons hlex hs ih =>
    cases h' with
    | nil => exact Or.inr ⟨_, .cons hlex hs⟩
    | cons hlex' hs' =>
      -- symbols that give back whatever they can are the same, so both scans come to one place
      rw [slack_cons, Nat.add_eq_zero_iff] at hslack hslack'
      obtain ⟨rfl, rfl, rfl⟩ := hlex.unique hlex' hslack.1 hslack'.1
      exact ih hs' hslack.2 hslack'.2

/-! ## Checks that are none -/

/-- The beginning of a check, up to a place where it may go wrong: in front of it, inside of quotes,
behind the left side and behind the colon. -/
inductive CheckBegun : List Char → Prop
  | nothing : CheckBegun []
  | quoted {quote : Char} {value : List Char} (hquote : isQuote quote = true)
      (hchars : ∀ c ∈ value, isLeftSideChar c = true) : CheckBegun (quote :: value)
  | leftSide {lhs : LeftSide} {written : List Char} (h : lhs.Written written) : CheckBegun written
  | colon {lhs : LeftSide} {written : List Char} (h : lhs.Written written) :
      CheckBegun (written ++ [':'])

theorem leftSide_error (h : leftSide cs = .error f) :
    ∃ begun, CheckBegun begun ∧ cs = begun ++ f.rest := by
  cases cs with
  | nil =>
    cases h
    exact ⟨[], .nothing, rfl⟩
  | cons c cs =>
    unfold leftSide at h
    dsimp only at h
    split at h
    next hquote =>
      split at h
      next =>
        cases h
        exact ⟨[c], .quoted hquote nofun, rfl⟩
      next =>
        split at h
        next => cases h
        next =>
          cases h
          have hchars := List.all_eq_true.mp (@List.all_takeWhile _ isLeftSideChar cs)
          refine ⟨c :: cs.takeWhile isLeftSideChar, .quoted hquote hchars, ?_⟩
          rw [List.cons_append, List.takeWhile_append_dropWhile]
    next =>
      split at h
      next =>
        cases h
        exact ⟨[], .nothing, rfl⟩
      next => cases h

/-- A check that fails has no readings, and fails once, behind the beginning of a check. -/
theorem checkReadings_failed (h : Step.failed f ∈ checkReadings cs) :
    checkReadings cs = [.failed f] ∧ ∃ begun, CheckBegun begun ∧ cs = begun ++ f.rest := by
  unfold checkReadings at h ⊢
  split at h
  next f' hleft =>
    obtain rfl := Step.failed.inj (List.mem_singleton.mp h)
    exact ⟨rfl, leftSide_error hleft⟩
  next lhs rest hleft =>
    obtain ⟨written, hwritten, rfl⟩ := leftSide_sound hleft
    unfold rightSideReadings at h ⊢
    dsimp only at h ⊢
    split at h
    next hrun =>
      obtain rfl := Step.failed.inj (List.mem_singleton.mp h)
      rw [if_pos hrun]
      exact ⟨rfl, _, .colon hwritten, by simp⟩
    next =>
      obtain ⟨_, -, heq⟩ := List.mem_map.mp h
      cases heq
  next rest _ hleft =>
    obtain ⟨written, hwritten, rfl⟩ := leftSide_sound hleft
    obtain rfl := Step.failed.inj (List.mem_singleton.mp h)
    exact ⟨rfl, written, .leftSide hwritten, rfl⟩

/-! ## Stops -/

/-- A scan that comes to this place may end there with this failure. -/
inductive Stops : Place → List Char → Failure → Prop
  | ended {cs : List Char} (h : skipBlanks cs = []) : Stops .operand cs ⟨[], .expression⟩
  | check {cs : List Char} {f : Failure} (hnot : ∀ rest, ¬ Keyword.not.At cs rest)
      (hne : skipBlanks cs ≠ [])
      (hopen : ∀ c, (skipBlanks cs).head? = some c → opensAtom c = false)
      (h : checkReadings (skipBlanks cs) = [.failed f]) : Stops .operand cs f
  | operator {cs : List Char} {expected : Expectation} :
      Stops .operator cs ⟨skipBlanks cs, expected⟩

namespace Stops

theorem of_skipBlanks_eq (h : Stops p cs f) (hskip : skipBlanks ds = skipBlanks cs) :
    Stops p ds f := by
  cases h with
  | ended h => exact .ended (hskip.trans h)
  | check hnot hne hopen h =>
    rw [← hskip] at hne hopen h
    exact .check (fun rest hat => hnot rest (hat.of_skipBlanks_eq hskip.symm)) hne hopen h
  | operator =>
    rw [← hskip]
    exact .operator

theorem suffix (h : Stops p cs f) : f.rest <:+ skipBlanks cs := by
  cases h with
  | ended => exact List.nil_suffix
  | check _ _ _ h =>
    obtain ⟨begun, -, hcs⟩ := (checkReadings_failed (h ▸ List.mem_singleton.mpr rfl)).2
    exact ⟨begun, hcs.symm⟩
  | operator => exact List.suffix_refl _

/-- Where no operand can be taken, no scan goes on. -/
theorem not_lexes {s : Symbol} (h : Stops .operand cs f) : ¬ Lexes .operand cs s q rest := by
  intro hlex
  cases h with
  | ended h =>
    obtain ⟨c, written, hskip⟩ := hlex.exists_written
    rw [h] at hskip
    cases hskip
  | check hnot hne hopen h =>
    cases hlex with
    | not hat => exact hnot _ hat
    | opening hskip | allow hskip | deny hskip =>
      rw [hskip] at hopen
      cases hopen _ rfl
    | check _ _ hcheck =>
      have hfound := mem_found_checkReadings.mpr ⟨_, _, rfl, hcheck⟩
      rw [h] at hfound
      cases hfound

/-- At one place all failures leave the same text. -/
theorem same_rest (h : Stops p cs f) (h' : Stops p cs g) : f.rest = g.rest := by
  cases h with
  | ended h =>
    cases h' with
    | ended => rfl
    | check _ hne => exact absurd h hne
  | check _ hne _ h =>
    cases h' with
    | ended h' => exact absurd h' hne
    | check _ _ _ h' =>
      rw [h] at h'
      rw [Step.failed.inj (List.cons.inj h').1]
  | operator =>
    cases h' with
    | operator => rfl

/-- A scan goes on from where another stops only if it comes further, by more than blanks. -/
theorem rest_eq_of_scans (hscan : Scans p cs ss q mid) (h : Stops p cs f) (h' : Stops q mid g)
    (hskip : skipBlanks f.rest = skipBlanks g.rest) : f.rest = g.rest := by
  cases hscan with
  | nil => exact h.same_rest h'
  | cons hlex hs =>
    cases p with
    | operand => exact absurd hlex h.not_lexes
    | operator =>
      -- the scan takes a symbol behind the first failure, and that is more than blanks
      exfalso
      have hlt := hlex.length_lt
      have hmid := hs.suffix.length_le
      have hrest := h'.suffix.length_le
      have hbehind := length_skipBlanks_le mid
      have hfirst := length_skipBlanks_le g.rest
      cases h with
      | operator =>
        rw [skipBlanks_skipBlanks] at hskip
        rw [hskip] at hlt
        omega

end Stops

/-! ## Every failure is reached by a scan -/

/-- A scan comes to where the event happens. -/
def Step.ReachedFrom (p : Place) (cs : List Char) : Step → Prop
  | .found _ rest => ∃ ss mid, Scans p cs ss .operator mid ∧ skipBlanks mid = skipBlanks rest
  | .failed f => ∃ ss q mid, Scans p cs ss q mid ∧ Stops q mid f

/-- A scan comes to where the event happens, and its symbols are the beginning of a rule: they lead
from `n` open groups to `m` where an expression is found, and to any number where it fails. -/
def Step.NestedFrom (p : Place) (n : Nat) (cs : List Char) (m : Nat) : Step → Prop
  | .found _ rest => ∃ ss mid, Scans p cs ss .operator mid ∧ Leads p n ss .operator m ∧
      skipBlanks mid = skipBlanks rest
  | .failed f => ∃ ss q k mid, Scans p cs ss q mid ∧ Leads p n ss q k ∧ Stops q mid f

theorem Step.NestedFrom.reached {s : Step} (h : s.NestedFrom p n cs m) : s.ReachedFrom p cs := by
  cases s with
  | found e rest =>
    obtain ⟨ss, mid, hscan, -, hskip⟩ := h
    exact ⟨ss, mid, hscan, hskip⟩
  | failed f =>
    obtain ⟨ss, q, k, mid, hscan, -, hstops⟩ := h
    exact ⟨ss, q, mid, hscan, hstops⟩

/-- What is reached from a place on a scan is reached from its beginning. -/
theorem Step.NestedFrom.after {s : Step} (h : s.NestedFrom q k rest m) (hscan : Scans p cs ss q mid)
    (hleads : Leads p n ss q k) (hskip : skipBlanks mid = skipBlanks rest) :
    s.NestedFrom p n cs m := by
  cases s with
  | found e end' =>
    obtain ⟨ts, mid', hrest, hleads', hend⟩ := h
    refine ⟨ss ++ ts, ?_⟩
    cases hrest with
    | nil =>
      rw [← List.append_nil ss] at hscan
      exact ⟨mid, hscan, hleads.append hleads', hskip.trans hend⟩
    | cons hlex hs =>
      exact ⟨mid', hscan.append (.cons (hlex.of_skipBlanks_eq hskip) hs), hleads.append hleads',
        hend⟩
  | failed f =>
    obtain ⟨ts, q', k', mid', hrest, hleads', hstops⟩ := h
    refine ⟨ss ++ ts, q', k', ?_⟩
    cases hrest with
    | nil =>
      rw [← List.append_nil ss] at hscan
      exact ⟨mid, hscan, hleads.append hleads', hstops.of_skipBlanks_eq hskip⟩
    | cons hlex hs =>
      exact ⟨mid', hscan.append (.cons (hlex.of_skipBlanks_eq hskip) hs), hleads.append hleads',
        hstops⟩

theorem Trace.nested_andThen {t : Trace} {next : Expr → List Char → Trace}
    (ht : ∀ s ∈ t, s.NestedFrom p n cs k)
    (hnext : ∀ e rest, (e, rest) ∈ t.found → ∀ s ∈ next e rest, s.NestedFrom .operator k rest m) :
    ∀ s ∈ t.andThen next, s.NestedFrom p n cs m := by
  intro s hs
  obtain ⟨s', hs', hmem⟩ := List.mem_flatMap.mp hs
  cases s' with
  | found e rest =>
    obtain ⟨ss, mid, hscan, hleads, hskip⟩ := ht _ hs'
    exact (hnext e rest (mem_found.mpr hs') s hmem).after hscan hleads hskip
  | failed f =>
    rw [List.mem_singleton.mp hmem]
    exact ht _ hs'

/-- What is due where a goal begins. -/
def Goal.place : Goal → Place
  | .disjunctionAfter _ | .conjunctionAfter _ => .operator
  | _ => .operand

theorem Step.nested_here (e : Expr) (h : skipBlanks cs = skipBlanks rest) :
    (Step.found e rest).NestedFrom .operator n cs n :=
  ⟨[], cs, .nil, .nil, h⟩

theorem closeGroup_nested (e : Expr) (cs : List Char) :
    ∀ s ∈ closeGroup e cs, s.NestedFrom .operator (n + 1) cs n := by
  intro s hs
  unfold closeGroup at hs
  split at hs
  next rest heq =>
    rw [List.mem_singleton.mp hs]
    exact ⟨_, rest, .single (.closing heq), .closing, (skipBlanks_skipBlanks rest).symm⟩
  next =>
    rw [List.mem_singleton.mp hs]
    exact ⟨[], .operator, n + 1, cs, .nil, .nil, .operator⟩

/-- Where a check is due, it is taken or the scan stops. -/
theorem checkReadings_nested (hnot : ∀ rest, ¬ Keyword.not.At cs rest) (hne : skipBlanks cs ≠ [])
    (hopen : ∀ c, (skipBlanks cs).head? = some c → opensAtom c = false) :
    ∀ s ∈ checkReadings (skipBlanks cs), s.NestedFrom .operand n cs n := by
  intro s hs
  cases s with
  | found e rest =>
    obtain ⟨lhs, rhs, -, hcheck⟩ := mem_found_checkReadings.mp (Trace.mem_found.mpr hs)
    exact ⟨_, rest, .single (.check hnot hopen hcheck), .check, rfl⟩
  | failed f =>
    exact ⟨[], .operand, n, cs, .nil, .nil, .check hnot hne hopen (checkReadings_failed hs).1⟩

/-- Whatever happens when a goal is read, a scan of the text comes there, and what it has taken is
the beginning of a rule. -/
theorem readings_nested (goal : Goal) (cs : List Char) :
    ∀ n, (goal = .atom → ∀ rest, ¬ Keyword.not.At cs rest) →
      ∀ s ∈ readings goal cs, s.NestedFrom goal.place n cs n := by
  induction goal, cs using readings_induction with
  | disjunction cs hfirst hrest =>
    intro n _
    rw [readings_disjunction]
    exact Trace.nested_andThen (hfirst n nofun) fun e rest hfound => hrest e rest hfound n nofun
  | disjunctionEnd left cs hor =>
    intro n _ s hs
    rw [readings_disjunctionAfter_end left hor] at hs
    rw [List.mem_singleton.mp hs]
    exact Step.nested_here left rfl
  | or left cs cs' hor hfirst hrest =>
    intro n _ s hs
    rw [readings_disjunctionAfter_or left hor] at hs
    have hright : s.NestedFrom .operand n cs' n := Trace.nested_andThen (hfirst n nofun)
      (fun e rest hfound => hrest e rest hfound n nofun) s hs
    exact hright.after (.single (.or (Keyword.accept_eq_some_iff.mp hor))) .or rfl
  | conjunction cs hfirst hrest =>
    intro n _
    rw [readings_conjunction]
    exact Trace.nested_andThen (hfirst n nofun) fun e rest hfound => hrest e rest hfound n nofun
  | conjunctionEnd left cs hand =>
    intro n _ s hs
    rw [readings_conjunctionAfter_end left hand] at hs
    rw [List.mem_singleton.mp hs]
    exact Step.nested_here left rfl
  | and left cs cs' hand hfirst hrest =>
    intro n _ s hs
    rw [readings_conjunctionAfter_and left hand] at hs
    have hright : s.NestedFrom .operand n cs' n := Trace.nested_andThen (hfirst n nofun)
      (fun e rest hfound => hrest e rest hfound n nofun) s hs
    exact hright.after (.single (.and (Keyword.accept_eq_some_iff.mp hand))) .and rfl
  | not cs cs' hnot hoperand =>
    intro n _ s hs
    rw [readings_unary_not hnot] at hs
    have hinner : s.NestedFrom .operand n cs' n := by
      refine Trace.nested_andThen (hoperand n nofun) (fun e rest _ s hs => ?_) s hs
      rw [List.mem_singleton.mp hs]
      exact Step.nested_here (.not e) rfl
    exact hinner.after (.single (.not (Keyword.accept_eq_some_iff.mp hnot))) .not rfl
  | atom cs hnot hatom =>
    intro n _
    rw [readings_unary_atom hnot]
    exact hatom n fun _ => Keyword.accept_eq_none_iff.mp hnot
  | ended cs h =>
    intro n _ s hs
    rw [readings_atom_ended h] at hs
    rw [List.mem_singleton.mp hs]
    exact ⟨[], .operand, n, cs, .nil, .nil, .ended h⟩
  | allow cs rest h =>
    intro n _ s hs
    rw [readings_atom_allow h] at hs
    rw [List.mem_singleton.mp hs]
    exact ⟨_, rest, .single (.allow h), .const, (skipBlanks_skipBlanks rest).symm⟩
  | deny cs rest h =>
    intro n _ s hs
    rw [readings_atom_deny h] at hs
    rw [List.mem_singleton.mp hs]
    exact ⟨_, rest, .single (.deny h), .const, (skipBlanks_skipBlanks rest).symm⟩
  | group cs inner h hinner =>
    -- inside of the parentheses one more group is open, until `closeGroup` closes it
    intro n _ s hs
    rw [readings_atom_group h] at hs
    have hgroup : s.NestedFrom .operand (n + 1) inner n := Trace.nested_andThen
      (hinner (n + 1) nofun) (fun e rest _ => closeGroup_nested e rest) s hs
    exact hgroup.after (.single (.opening h)) .opening rfl
  | check cs hne hopen =>
    intro n hnot
    rw [readings_atom_check hne hopen]
    refine Trace.nested_andThen (checkReadings_nested (hnot rfl) hne hopen) ?_
    intro e rest _ s hs
    rw [List.mem_singleton.mp hs]
    exact Step.nested_here e (skipBlanks_skipBlanks rest).symm

theorem ruleReadings_nested (cs : List Char) :
    ∀ s ∈ ruleReadings cs, s.NestedFrom .operand 0 cs 0 := by
  refine Trace.nested_andThen (readings_nested .disjunction cs 0 nofun) fun e rest _ s hs => ?_
  split at hs
  next heq =>
    rw [List.mem_singleton.mp hs]
    exact Step.nested_here e heq
  next =>
    rw [List.mem_singleton.mp hs]
    exact ⟨[], .operator, 0, rest, .nil, .nil, .operator⟩

/-! ## Failures of one text -/

theorem failure_nested (h : f ∈ (ruleReadings cs).failures) :
    (Step.failed f).NestedFrom .operand 0 cs 0 := by
  obtain ⟨s, hs, heq⟩ := List.mem_filterMap.mp h
  cases s with
  | found => cases heq
  | failed f' =>
    obtain rfl := Option.some.inj heq
    exact ruleReadings_nested cs _ hs

theorem failure_reached (h : f ∈ (ruleReadings cs).failures) :
    ∃ ss q mid, Scans .operand cs ss q mid ∧ Stops q mid f :=
  (failure_nested h).reached

/-- What a failure leaves over is the end of the text. -/
theorem failure_suffix (h : f ∈ (ruleReadings cs).failures) : f.rest <:+ cs := by
  obtain ⟨ss, q, mid, hscan, hstops⟩ := failure_reached h
  exact hstops.suffix.trans ((skipBlanks_suffix mid).trans hscan.suffix)

/-- **Failures.** Two failures that are only blanks apart are at one place. -/
theorem rest_eq_of_failures (hf : f ∈ (ruleReadings cs).failures)
    (hg : g ∈ (ruleReadings cs).failures) (hskip : skipBlanks f.rest = skipBlanks g.rest) :
    f.rest = g.rest := by
  obtain ⟨ss, q, mid, hscan, hstops⟩ := failure_reached hf
  obtain ⟨ss', q', mid', hscan', hstops'⟩ := failure_reached hg
  rcases hscan.spread.goesOn hscan'.spread (slack_spread ss) (slack_spread ss') with h | h
  · obtain ⟨ts, hts⟩ := h
    exact hstops.rest_eq_of_scans hts hstops' hskip
  · obtain ⟨ts, hts⟩ := h
    exact (hstops'.rest_eq_of_scans hts hstops hskip.symm).symm

end AccessPolicy
