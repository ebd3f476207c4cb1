import AccessPolicy.Proofs.Dialogue
import AccessPolicy.Proofs.Replacement

/-!
# The order of the log

What an evaluation reports is in post-order: main statement `evaluateWithin_postOrder`. Every rule that
is evaluated on the way to a result leaves one block of the log, and the block ends with what became of
that rule; blocks are nested as the evaluations are.

The log alone does not show which evaluations there were. These are told from the dialogues: following
them from rule to rule gives the `Course` of an evaluation, a tree with all evaluations that are asked
for and what is told of each. One lemma says what the course of one dialogue adds to what it asks for
(`Dialogue.entries_run`, `Dialogue.exists_call`, `Dialogue.isVerdict_of_mem_events`), and from each
follows by induction on the bound what holds of all the rules that are under way.
-/

namespace AccessPolicy

/-! ## The evaluations on the way to a result -/

/-- What happens on the way to a result, in order. -/
inductive Course where
  /-- Nothing more happens. -/
  | finished
  /-- An event is observed. -/
  | event (e : Event) (rest : Course)
  /-- A rule is evaluated. This takes a course of its own, and its outcome is what is told of it. -/
  | call (rule : String) (request : Request) (inner : Course) (outcome : Except Fault Bool)
      (rest : Course)

/-- The course of a dialogue, where the rules that it asks for come to these outcomes in these
courses. -/
def Dialogue.course (outcome : String → Request → Except Fault Bool)
    (inner : String → Request → Course) : Dialogue → Course
  | .answer _ => .finished
  | .fault _ => .finished
  | .observe e d => .event e (d.course outcome inner)
  | .ask rule request d =>
    .call rule request (inner rule request) (outcome rule request)
      (match outcome rule request with
      | .ok result => (d result).course outcome inner
      | .error _ => .finished)

/-- What became of a rule, as it is reported; of a rule that ends in a fault nothing is. -/
def RuleSet.verdict (rs : RuleSet) (rule : String) : Except Fault Bool → List LogEntry
  | .ok result => [if rs.isDefined rule then .evaluated rule result else .undefined rule]
  | .error _ => []

namespace Course

/-- The log in post-order: the log of an evaluation, and then what became of the rule. -/
def log (rs : RuleSet) : Course → List LogEntry
  | .finished => []
  | .event (.logged entry) rest => entry :: rest.log rs
  | .event (.called _ _) rest => rest.log rs
  | .call rule _ inner outcome rest => inner.log rs ++ rs.verdict rule outcome ++ rest.log rs

/-- The events that evaluations let be observed themselves, at whatever depth. -/
def events : Course → List Event
  | .finished => []
  | .event e rest => e :: rest.events
  | .call _ _ inner _ rest => inner.events ++ rest.events

end Course

/-- The evaluation of a rule for a request: what happens on the way, and what comes of it. -/
structure Call where
  rule : String
  request : Request
  course : Course
  outcome : Except Fault Bool

/-- The block of the log that an evaluation leaves. -/
def Call.log (rs : RuleSet) (c : Call) : List LogEntry :=
  c.course.log rs ++ rs.verdict c.rule c.outcome

/-- The evaluation that is made where this rule is asked for. -/
def RuleOracle.call (ask : RuleOracle) (inner : String → Request → Course) (rule : String)
    (request : Request) : Call :=
  ⟨rule, request, inner rule request, (ask rule request).outcome⟩

/-- The evaluation is made in this course, at whatever depth. -/
inductive Call.MadeIn (c : Call) : Course → Prop
  | here {rest : Course} : MadeIn c (.call c.rule c.request c.course c.outcome rest)
  | inside {rule : String} {request : Request} {inner : Course} {outcome : Except Fault Bool}
      {rest : Course} (h : MadeIn c inner) : MadeIn c (.call rule request inner outcome rest)
  | behindCall {rule : String} {request : Request} {inner : Course} {outcome : Except Fault Bool}
      {rest : Course} (h : MadeIn c rest) : MadeIn c (.call rule request inner outcome rest)
  | behindEvent {e : Event} {rest : Course} (h : MadeIn c rest) : MadeIn c (.event e rest)

namespace RuleSet

/-- The course of the evaluation of a rule. -/
def course (rs : RuleSet) : (bound : Nat) → String → Request → Course
  | 0, _, _ => .finished
  | bound + 1, name, request =>
    match rs.rule? name with
    | none => .finished
    | some e => (rs.dialogue request e).course
        (fun rule request => (rs.evaluateWithin bound rule request).outcome) (rs.course bound)

/-- The evaluation of a rule, with what comes of it. -/
def call (rs : RuleSet) (bound : Nat) : String → Request → Call :=
  (rs.evaluateWithin bound).call (rs.course bound)

end RuleSet

/-- The run leaves the block of this evaluation in its log. If the evaluation ends in a fault the log
ends with it, and so does the run. -/
def Run.HasBlock (r : Run Bool) (rs : RuleSet) (c : Call) : Prop :=
  ∃ before after, r.entries = before ++ c.log rs ++ after ∧
    ∀ f, c.outcome = .error f → r.outcome = .error f ∧ after = []

/-! ## The log -/

variable {rs : RuleSet} {ask : RuleOracle} {inner : String → Request → Course}

/-- What a dialogue reports is the log of its course, if the rules that it asks for report theirs and
then what became of them. -/
theorem Dialogue.entries_run
    (h : ∀ rule request, (ask rule request).entries =
      (inner rule request).log rs ++ rs.verdict rule (ask rule request).outcome) (d : Dialogue) :
    (d.run ask).entries =
      (d.course (fun rule request => (ask rule request).outcome) inner).log rs := by
  induction d with
  | answer | fault => rfl
  | observe e d ih =>
    rw [run, Run.entries_bind_of_ok rfl, ih, course]
    cases e <;> rfl
  | ask rule request d ih =>
    rw [run, course, Course.log, ← h]
    cases houtcome : (ask rule request).outcome with
    | ok result => rw [Run.entries_bind_of_ok houtcome, ih]
    | error f => rw [Run.entries_bind_of_error houtcome, Course.log, List.append_nil]

namespace RuleSet

theorem verdict_of_none {name : String} (h : rs.rule? name = none) (result : Bool) :
    rs.verdict name (.ok result) = [.undefined name] := by
  have hdefined : rs.isDefined name = false := congrArg Option.isSome h
  rw [verdict, hdefined]
  rfl

theorem verdict_of_some {name : String} {e : Expr} (h : rs.rule? name = some e) (result : Bool) :
    rs.verdict name (.ok result) = [.evaluated name result] := by
  have hdefined : rs.isDefined name = true := congrArg Option.isSome h
  rw [verdict, hdefined]
  rfl

variable (rs) (bound : Nat) (name : String) (request : Request)

/-- The log of a rule is that of its course, and then what became of it. -/
theorem entries_evaluateWithin :
    (rs.evaluateWithin bound name request).entries = (rs.course bound name request).log rs ++
      rs.verdict name (rs.evaluateWithin bound name request).outcome := by
  induction bound generalizing name request with
  | zero => rfl
  | succ bound ih =>
    cases hrule : rs.rule? name with
    | none =>
      rw [evaluateWithin, course, hrule]
      exact (verdict_of_none hrule false).symm
    | some e =>
      have hlog := Dialogue.entries_run ih (rs.dialogue request e)
      rw [run_dialogue] at hlog
      rw [rs.outcome_evaluateWithin bound hrule, evaluateWithin, course, hrule]
      dsimp only
      cases houtcome : (rs.runExpr (rs.evaluateWithin bound) request e).outcome with
      | ok result =>
        rw [Run.entries_bind_of_ok houtcome, hlog, verdict_of_some hrule]
        rfl
      | error f =>
        rw [Run.entries_bind_of_error houtcome, hlog]
        exact (List.append_nil _).symm

/-- A rule that is not there is denied. -/
theorem eq_false_of_undefined {result : Bool}
    (h : (rs.evaluateWithin bound name request).outcome = .ok result)
    (hdefined : rs.isDefined name = false) : result = false := by
  have hrule : rs.rule? name = none :=
    Option.not_isSome_iff_eq_none.mp (ne_true_of_eq_false hdefined)
  cases bound with
  | zero => cases h
  | succ bound =>
    rw [evaluateWithin, hrule] at h
    exact (Except.ok.inj h).symm

end RuleSet

/-! ## Blocks -/

/-- A block in a block is a block. -/
theorem Run.HasBlock.trans {r r' : Run Bool} {c c' : Call} (h : r.HasBlock rs c)
    (hentries : r'.entries = c.log rs) (houtcome : r'.outcome = c.outcome)
    (h' : r'.HasBlock rs c') : r.HasBlock rs c' := by
  obtain ⟨before, after, hlog, hfault⟩ := h
  obtain ⟨before', after', hlog', hfault'⟩ := h'
  rw [← hentries, hlog'] at hlog
  refine ⟨before ++ before', after' ++ after, by simpa using hlog, fun f hf => ?_⟩
  obtain ⟨hr', rfl⟩ := hfault' f hf
  obtain ⟨hr, rfl⟩ := hfault f (houtcome ▸ hr')
  exact ⟨hr, rfl⟩

/-- What is in a block of the second of two runs is in one of both together. -/
theorem Run.HasBlock.bind {α : Type} {r : Run α} {next : α → Run Bool} {a : α} {c : Call}
    (hr : r.outcome = .ok a) (h : (next a).HasBlock rs c) : (r >>= next).HasBlock rs c := by
  obtain ⟨before, after, hlog, hfault⟩ := h
  refine ⟨r.entries ++ before, after, ?_, fun f hf => ?_⟩
  · rw [entries_bind_of_ok hr, hlog]
    simp
  · rw [bind_of_ok hr]
    exact hfault f hf

/-- What is in a block of the first of two runs is in one of both together. -/
theorem Run.HasBlock.andThen {r : Run Bool} {c : Call} (h : r.HasBlock rs c)
    (next : Bool → Run Bool) : (r >>= next).HasBlock rs c := by
  obtain ⟨before, after, hlog, hfault⟩ := h
  cases hr : r.outcome with
  | ok result =>
    refine ⟨before, after ++ (next result).entries, ?_, fun f hf => ?_⟩
    · rw [entries_bind_of_ok hr, hlog, List.append_assoc]
    · cases hr.symm.trans (hfault f hf).1
  | error g =>
    refine ⟨before, after, ?_, fun f hf => ?_⟩
    · rw [entries_bind_of_error hr, hlog]
    · rw [bind_of_error hr, ← hr]
      exact hfault f hf

theorem Call.madeIn_call_iff {c : Call} {rule : String} {request : Request} {inner rest : Course}
    {outcome : Except Fault Bool} :
    c.MadeIn (.call rule request inner outcome rest) ↔
      c = ⟨rule, request, inner, outcome⟩ ∨ c.MadeIn inner ∨ c.MadeIn rest := by
  constructor
  · intro h
    obtain ⟨rule', request', course', outcome'⟩ := c
    cases h with
    | here => exact Or.inl rfl
    | inside h => exact Or.inr (Or.inl h)
    | behindCall h => exact Or.inr (Or.inr h)
  · rintro (rfl | h | h)
    · exact .here
    · exact .inside h
    · exact .behindCall h

/-- What is evaluated in the course of a dialogue is what it asks for, or is evaluated in the course
of that. -/
theorem Dialogue.exists_call
    (h : ∀ rule request, (ask rule request).entries = (ask.call inner rule request).log rs)
    {d : Dialogue} {c : Call}
    (hmade : c.MadeIn (d.course (fun rule request => (ask rule request).outcome) inner)) :
    ∃ rule request, (d.run ask).HasBlock rs (ask.call inner rule request) ∧
      (c = ask.call inner rule request ∨ c.MadeIn (inner rule request)) := by
  induction d with
  | answer | fault => cases hmade
  | observe e d ih =>
    cases hmade with
    | behindEvent hmade =>
      obtain ⟨rule, request, hblock, hcall⟩ := ih hmade
      exact ⟨rule, request, .bind rfl hblock, hcall⟩
  | ask rule request d ih =>
    have hhere : ((Dialogue.ask rule request d).run ask).HasBlock rs
        (ask.call inner rule request) := by
      cases houtcome : (ask rule request).outcome with
      | ok result =>
        refine ⟨[], ((d result).run ask).entries, ?_, fun f hf => ?_⟩
        · rw [run, Run.entries_bind_of_ok houtcome, h, List.nil_append]
        · cases houtcome.symm.trans hf
      | error f =>
        refine ⟨[], [], ?_, fun f hf => ⟨?_, rfl⟩⟩
        · rw [run, Run.entries_bind_of_error houtcome, h, List.nil_append, List.append_nil]
        · rw [run, Run.bind_of_error houtcome, ← houtcome]
          exact hf
    rw [course, Call.madeIn_call_iff] at hmade
    rcases hmade with heq | hmade | hmade
    · exact ⟨rule, request, hhere, Or.inl heq⟩
    · exact ⟨rule, request, hhere, Or.inr hmade⟩
    · split at hmade
      next result houtcome =>
        obtain ⟨rule', request', hblock, hcall⟩ := ih result hmade
        exact ⟨rule', request', .bind houtcome hblock, hcall⟩
      next => cases hmade

/-- Every evaluation that is made on the way to a result is the evaluation of a rule, within a smaller
bound, and leaves its block in the log. -/
theorem RuleSet.exists_call {bound : Nat} {name : String} {request : Request} {c : Call}
    (h : c.MadeIn (rs.course bound name request)) :
    (∃ n < bound, c = rs.call n c.rule c.request) ∧
      (rs.evaluateWithin bound name request).HasBlock rs c := by
  induction bound generalizing name request with
  | zero => cases h
  | succ bound ih =>
    rw [course] at h
    cases hrule : rs.rule? name with
    | none =>
      rw [hrule] at h
      cases h
    | some e =>
      rw [hrule] at h
      obtain ⟨rule, q, hblock, hcall⟩ :=
        Dialogue.exists_call (rs.entries_evaluateWithin bound) h
      rw [run_dialogue] at hblock
      have hrun : (rs.evaluateWithin (bound + 1) name request).HasBlock rs (rs.call bound rule q) := by
        rw [evaluateWithin, hrule]
        exact hblock.andThen _
      rcases hcall with rfl | hmade
      · exact ⟨⟨bound, Nat.lt_succ_self bound, rfl⟩, hrun⟩
      · obtain ⟨⟨n, hn, hc⟩, hinner⟩ := ih hmade
        refine ⟨⟨n, Nat.lt_succ_of_lt hn, hc⟩, ?_⟩
        exact hrun.trans (rs.entries_evaluateWithin bound rule q) rfl hinner

/-! ## Events of its own -/

/-- The event says what became of a rule. -/
def Event.isVerdict : Event → Bool
  | .logged (.evaluated _ _) => true
  | .logged (.undefined _) => true
  | _ => false

/-- Of no rule the dialogue itself says what became of it. -/
def Dialogue.Quiet : Dialogue → Prop
  | .answer _ => True
  | .fault _ => True
  | .observe e d => e.isVerdict = false ∧ d.Quiet
  | .ask _ _ d => ∀ result, (d result).Quiet

theorem Dialogue.Quiet.bind {d : Dialogue} {next : Bool → Dialogue} (h : d.Quiet)
    (hnext : ∀ result, (next result).Quiet) : (d.bind next).Quiet := by
  induction d with
  | answer result => exact hnext result
  | fault => trivial
  | observe e d ih => exact ⟨h.1, ih h.2⟩
  | ask rule request d ih => exact fun result => ih result (h result)

theorem Decision.quiet_dialogue (defined : String → Bool) (d : Decision) :
    (d.dialogue defined).Quiet := by
  induction d with
  | answer | giveUp => trivial
  | evaluate rule request next ih => exact ih
  | isDefined rule next ih => exact ih _

theorem RuleSet.quiet_checkDialogue (rs : RuleSet) (request : Request) (lhs : LeftSide)
    (rhs : String) : (rs.checkDialogue request lhs rhs).Quiet := by
  unfold checkDialogue
  split
  next => exact ⟨rfl, trivial⟩
  next =>
    split
    next => trivial
    next =>
      split
      next checker _ =>
        cases checker with
        | role => trivial
        | rule => exact fun _ => trivial
        | custom decide => exact ⟨rfl, Decision.quiet_dialogue _ _⟩
      next =>
        split
        next => trivial
        next => exact ⟨rfl, trivial⟩

theorem RuleSet.quiet_dialogue (rs : RuleSet) (request : Request) (e : Expr) :
    (rs.dialogue request e).Quiet := by
  induction e with
  | const => trivial
  | check lhs rhs => exact rs.quiet_checkDialogue request lhs rhs
  | and left right ihleft ihright =>
    refine ihleft.bind fun result => ?_
    cases result with
    | false => trivial
    | true => exact ihright
  | or left right ihleft ihright =>
    refine ihleft.bind fun result => ?_
    cases result with
    | false => exact ihright
    | true => trivial
  | not operand ih => exact ih.bind fun _ => trivial

theorem Dialogue.isVerdict_of_mem_events {outcome : String → Request → Except Fault Bool}
    (h : ∀ rule request, ∀ e ∈ (inner rule request).events, e.isVerdict = false) {d : Dialogue}
    (hd : d.Quiet) : ∀ e ∈ (d.course outcome inner).events, e.isVerdict = false := by
  induction d with
  | answer | fault => nofun
  | observe e d ih =>
    intro e' he'
    rcases List.mem_cons.mp he' with rfl | he'
    · exact hd.1
    · exact ih hd.2 e' he'
  | ask rule request d ih =>
    intro e he
    rw [course, Course.events] at he
    rcases List.mem_append.mp he with he | he
    · exact h rule request e he
    · split at he
      next result _ => exact ih result (hd result) e he
      next => cases he

/-- What became of a rule is said at the end of its block and nowhere else. -/
theorem RuleSet.isVerdict_of_mem_events {bound : Nat} {name : String} {request : Request} {e : Event}
    (h : e ∈ (rs.course bound name request).events) : e.isVerdict = false := by
  induction bound generalizing name request e with
  | zero => cases h
  | succ bound ih =>
    rw [course] at h
    split at h
    next => cases h
    next expr _ =>
      exact Dialogue.isVerdict_of_mem_events (fun _ _ _ he => ih he) (rs.quiet_dialogue request expr)
        e h

/-! ## Post-order -/

/-- **Post-order.** The log of an evaluation is the log of its course, and then what became of the
rule. Every evaluation on the way, whoever asked for it, is the evaluation of its rule, and what is
told of it is what that comes to. It leaves its block in the log. If it comes to a result, the block
ends with one entry that says so, and a rule that is not defined comes to `false`. If it ends in a
fault, there is no such entry, and nothing follows. No other entry says what became of a rule. So
with a result, the last entry is that of the rule itself. -/
theorem RuleSet.evaluateWithin_postOrder (rs : RuleSet) (bound : Nat) (name : String)
    (request : Request) :
    (rs.evaluateWithin bound name request).entries = (rs.call bound name request).log rs ∧
      (∀ c : Call, c.MadeIn (rs.course bound name request) →
        (∃ n < bound, c = rs.call n c.rule c.request) ∧
        (rs.evaluateWithin bound name request).HasBlock rs c ∧
        (∀ result, c.outcome = .ok result →
          c.log rs = c.course.log rs ++
            [if rs.isDefined c.rule then .evaluated c.rule result else .undefined c.rule] ∧
          (rs.isDefined c.rule = false → result = false)) ∧
        ∀ f, c.outcome = .error f → c.log rs = c.course.log rs) ∧
      (∀ e ∈ (rs.course bound name request).events, e.isVerdict = false) ∧
      (∀ result, (rs.evaluateWithin bound name request).outcome = .ok result →
        (rs.evaluateWithin bound name request).entries.getLast? = some
          (if rs.isDefined name then .evaluated name result else .undefined name)) ∧
      ∀ ask q e, (rs.dialogue q e).run ask = rs.runExpr ask q e := by
  have hentries := rs.entries_evaluateWithin bound name request
  refine ⟨hentries, fun c hmade => ?_, fun e he => rs.isVerdict_of_mem_events he, ?_,
    fun ask q e => rs.run_dialogue ask q e⟩
  · obtain ⟨⟨n, hn, hc⟩, hblock⟩ := RuleSet.exists_call hmade
    refine ⟨⟨n, hn, hc⟩, hblock, fun result hresult => ⟨?_, fun hdefined => ?_⟩, fun f hf => ?_⟩
    · rw [Call.log, hresult, verdict]
    · rw [hc] at hresult
      exact rs.eq_false_of_undefined n c.rule c.request hresult hdefined
    · rw [Call.log, hf, verdict, List.append_nil]
  · intro result hresult
    rw [hentries, hresult, verdict, List.getLast?_concat]

/-- A rule that asks for another one, and a checker that gives up while it is under way. -/
example :
    let rs := ((((RuleSet.fresh.addChecker "unless" Checker.deniedByRule).addChecker "breaks"
      Checker.failing).store "edit" (.and (.check (.identifier "rule") "read")
        (.check (.identifier "breaks") "now"))).store "read"
        (.check (.identifier "unless") "banned"))
    let run := rs.evaluateWithin 4 "edit" ⟨⟨[], ∅⟩, .unknown⟩
    run.entries = [.undefined "banned", .evaluated "read" true] ∧
      run.calls = [("unless", "banned"), ("breaks", "now")] := by
  decide

end AccessPolicy
