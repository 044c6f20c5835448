import ExprCalc.Proofs.Parser.Demand

/-!
The parser as a machine that goes step by step. A call that waits for another one is a frame on a
stack, and what the parser counts stands in registers: the unary calls in progress, and the height
of the tree that was returned last. The machine gets to know its source by looking at one token at
a time, and it gives the answers of the parser.
-/

namespace ExprCalc.Parser

open Grammar

variable {σ ε α : Type}

/-- Why a call fails: a stop of the parser, or a limit that is exceeded at the given token. -/
inductive Fault (ε : Type) where
  | stop (s : Stop ε)
  | limit (found : Token)

def Fault.toStop : Fault ε → Stop ε
  | stop s => s
  | limit found => .syntax_ (.unexpected found)

/-- A call that waits for the call it has made. -/
inductive Frame where
  | first (l : Level)
  /-- A chain of operators, for the operand after `op`. The tree before `op` is `left`. -/
  | right (l : Level) (left : Expr) (height : Nat) (op : Token)
  /-- A unary call, for the operand of `op`, or for a primary. -/
  | unary (op : Option Token)
  | group

inductive Control (ε : Type) where
  | call (r : Phrase)
  | unary
  | loop (l : Level) (left : Expr) (height : Nat)
  | close (e : Expr)
  | done (e : Expr)
  | accepted (e : Expr)
  | failed (fault : Fault ε)

structure Core (ε : Type) where
  depth : Nat
  height : Nat
  control : Control ε
  stack : List Frame

/-- The running call fails. A unary call is no longer counted then. -/
def Core.fail (core : Core ε) (fault : Fault ε) : Core ε :=
  match core.control with
  | .unary => { core with control := .failed fault, depth := core.depth - 1 }
  | _ => { core with control := .failed fault }

theorem fail_control (core : Core ε) (fault : Fault ε) :
    (core.fail fault).control = .failed fault := by
  unfold Core.fail
  split <;> rfl

/-- What the core does in one step: it goes on by itself, or it looks at the next token and says
whether it uses it up, or its call has ended. -/
inductive Move (ε : Type) where
  | silent (next : Core ε)
  | look (next : Token → Bool × Core ε)
  | halt

namespace Core

/-- The core after the running call has returned `e` to the frame on top of the stack. -/
def resume (limit : Nat) (core : Core ε) (e : Expr) : Frame → Core ε
  | .first l => { core with control := .loop l e core.height }
  | .right l left height op =>
    if max height core.height + 1 ≤ limit then
      { core with control := .loop l (.binary left op e) (max height core.height + 1) }
    else { core with control := .failed (.limit op) }
  | .unary none => { core with depth := core.depth - 1 }
  | .unary (some op) =>
    { core with
      depth := core.depth - 1
      height := core.height + 1
      control := if core.height + 1 ≤ limit then .done (.unary op e) else .failed (.limit op) }
  | .group => { core with control := .close e }

/-- The core after a failure has been passed on to the frame on top of the stack. -/
def unwind (core : Core ε) : Frame → Core ε
  | .unary _ => { core with depth := core.depth - 1 }
  | _ => core

def unaryLook (limit : Nat) (core : Core ε) (t : Token) : Bool × Core ε :=
  let found := t.kind ∈ [Kind.bang, .minus]
  if limit < core.depth then (found, core.fail (.limit t))
  else if found then
    (true, { core with control := .call .unary, stack := .unary (some t) :: core.stack })
  else (false, { core with control := .call .primary, stack := .unary none :: core.stack })

def primaryLook (core : Core ε) (t : Token) : Bool × Core ε :=
  if t.kind = .leftParen then
    (true, { core with control := .call (.level .equality), stack := .group :: core.stack })
  else
    match literal? t with
    | some v => (true, { core with height := 1, control := .done (.literal t v) })
    | none =>
      (t.kind = .number ∨ t.kind = .string, core.fail (.stop (.syntax_ (.unexpected t))))

def loopLook (core : Core ε) (l : Level) (left : Expr) (height : Nat) (t : Token) :
    Bool × Core ε :=
  if t.kind ∈ l.operators then
    (true, { core with control := .call l.operand, stack := .right l left height t :: core.stack })
  else (false, { core with height := height, control := .done left })

def closeLook (core : Core ε) (e : Expr) (t : Token) : Bool × Core ε :=
  if t.kind = .rightParen then (true, { core with control := .done e })
  else (false, core.fail (.stop (.syntax_ (.expected .rightParen t))))

def endLook (core : Core ε) (e : Expr) (t : Token) : Bool × Core ε :=
  if t.kind = .eof then (false, { core with control := .accepted e })
  else (false, core.fail (.stop (.syntax_ (.unexpected t))))

def move (limit : Nat) (core : Core ε) : Move ε :=
  match core.control, core.stack with
  | .call (.level l), stack =>
    .silent { core with control := .call l.operand, stack := .first l :: stack }
  | .call .unary, _ => .silent { core with depth := core.depth + 1, control := .unary }
  | .call .primary, _ => .look core.primaryLook
  | .unary, _ => .look (core.unaryLook limit)
  | .loop l left height, _ => .look (core.loopLook l left height)
  | .close e, _ => .look (core.closeLook e)
  | .done e, [] => .look (core.endLook e)
  | .done e, frame :: stack => .silent ({ core with stack }.resume limit e frame)
  | .failed _, frame :: stack => .silent ({ core with stack }.unwind frame)
  | .failed _, [] => .halt
  | .accepted _, _ => .halt

/-- What a core can do by itself. -/
inductive GoesOn (limit : Nat) : Core ε → Core ε → Prop
  | level {depth height : Nat} {l : Level} {stack : List Frame} :
      GoesOn limit ⟨depth, height, .call (.level l), stack⟩
        ⟨depth, height, .call l.operand, .first l :: stack⟩
  | unary {depth height : Nat} {stack : List Frame} :
      GoesOn limit ⟨depth, height, .call .unary, stack⟩ ⟨depth + 1, height, .unary, stack⟩
  | resume {depth height : Nat} {e : Expr} {frame : Frame} {stack : List Frame} :
      GoesOn limit ⟨depth, height, .done e, frame :: stack⟩
        (Core.resume limit ⟨depth, height, .done e, stack⟩ e frame)
  | unwind {depth height : Nat} {fault : Fault ε} {frame : Frame} {stack : List Frame} :
      GoesOn limit ⟨depth, height, .failed fault, frame :: stack⟩
        (Core.unwind ⟨depth, height, .failed fault, stack⟩ frame)

/-- What a core can do with a token. -/
inductive Looks (limit : Nat) : Core ε → (Token → Bool × Core ε) → Prop
  | primary {depth height : Nat} {stack : List Frame} :
      Looks limit ⟨depth, height, .call .primary, stack⟩
        (Core.primaryLook ⟨depth, height, .call .primary, stack⟩)
  | unary {depth height : Nat} {stack : List Frame} :
      Looks limit ⟨depth, height, .unary, stack⟩
        (Core.unaryLook limit ⟨depth, height, .unary, stack⟩)
  | loop {depth height h : Nat} {l : Level} {left : Expr} {stack : List Frame} :
      Looks limit ⟨depth, height, .loop l left h, stack⟩
        (Core.loopLook ⟨depth, height, .loop l left h, stack⟩ l left h)
  | close {depth height : Nat} {e : Expr} {stack : List Frame} :
      Looks limit ⟨depth, height, .close e, stack⟩
        (Core.closeLook ⟨depth, height, .close e, stack⟩ e)
  | finish {depth height : Nat} {e : Expr} :
      Looks limit ⟨depth, height, .done e, []⟩ (Core.endLook ⟨depth, height, .done e, []⟩ e)

theorem goesOn_of_move {limit : Nat} {core next : Core ε} (hmove : core.move limit = .silent next) :
    core.GoesOn limit next := by
  obtain ⟨depth, height, control, stack⟩ := core
  cases control with
  | call r =>
    cases r with
    | level l =>
      cases hmove
      exact .level
    | unary =>
      cases hmove
      exact .unary
    | primary => cases hmove
  | done e =>
    cases stack with
    | nil => cases hmove
    | cons frame stack =>
      cases hmove
      exact .resume
  | failed fault =>
    cases stack with
    | nil => cases hmove
    | cons frame stack =>
      cases hmove
      exact .unwind
  | _ => cases hmove

theorem looks_of_move {limit : Nat} {core : Core ε} {look : Token → Bool × Core ε}
    (hmove : core.move limit = .look look) : core.Looks limit look := by
  obtain ⟨depth, height, control, stack⟩ := core
  cases control with
  | call r =>
    cases r with
    | primary =>
      cases hmove
      exact .primary
    | _ => cases hmove
  | unary =>
    cases hmove
    exact .unary
  | loop l left h =>
    cases hmove
    exact .loop
  | close e =>
    cases hmove
    exact .close
  | done e =>
    cases stack with
    | nil =>
      cases hmove
      exact .finish
    | cons frame stack => cases hmove
  | failed fault => cases stack <;> cases hmove
  | accepted e => cases hmove

end Core

structure Machine (σ ε : Type) where
  core : Core ε
  cursor : Cursor σ

namespace Machine

def looked (found : Bool × Core ε) (t : Token) (rest : σ) : Machine σ ε :=
  ⟨found.2, ⟨if found.1 then none else some t, rest⟩⟩

/-- One step, with the tokens it takes from the source. -/
def step (src : TokenSource σ ε) (limit : Nat) (m : Machine σ ε) :
    Option (List Token × Machine σ ε) :=
  match m.core.move limit with
  | .halt => none
  | .silent core => some ([], ⟨core, m.cursor⟩)
  | .look next =>
    match m.cursor.held with
    | some t => some ([], looked (next t) t m.cursor.rest)
    | none =>
      match src.next m.cursor.rest with
      | (.ok t, rest) => some ([t], looked (next t) t rest)
      | (.error e, rest) => some ([], ⟨m.core.fail (.stop (.source e)), ⟨none, rest⟩⟩)

def after (src : TokenSource σ ε) (limit : Nat) (m : Machine σ ε) : Nat → Machine σ ε
  | 0 => m
  | n + 1 =>
    match m.step src limit with
    | none => m
    | some (_, m') => m'.after src limit n

end Machine

/-- `Run src limit m ts m'`: step by step, the machine gets from `m` to `m'` and takes the tokens
`ts` from its source. -/
inductive Run (src : TokenSource σ ε) (limit : Nat) :
    Machine σ ε → List Token → Machine σ ε → Prop
  | refl {m : Machine σ ε} : Run src limit m [] m
  | step {m m' m'' : Machine σ ε} {ts us : List Token} (hstep : m.step src limit = some (ts, m'))
      (h : Run src limit m' us m'') : Run src limit m (ts ++ us) m''

def Reaches (src : TokenSource σ ε) (limit : Nat) (m m' : Machine σ ε) : Prop :=
  ∃ ts, Run src limit m ts m'

section Runs

variable {src : TokenSource σ ε} {limit : Nat} {m m' m'' : Machine σ ε}

theorem Run.trans {ts us : List Token} (h : Run src limit m ts m') (h' : Run src limit m' us m'') :
    Run src limit m (ts ++ us) m'' := by
  induction h with
  | refl => exact h'
  | step hstep _ ih =>
    rw [List.append_assoc]
    exact .step hstep (ih h')

theorem Reaches.refl : Reaches src limit m m :=
  ⟨[], .refl⟩

theorem Reaches.trans (h : Reaches src limit m m') (h' : Reaches src limit m' m'') :
    Reaches src limit m m'' := by
  obtain ⟨ts, h⟩ := h
  obtain ⟨us, h'⟩ := h'
  exact ⟨ts ++ us, h.trans h'⟩

theorem Reaches.head {ts : List Token} (hstep : m.step src limit = some (ts, m'))
    (h : Reaches src limit m' m'') : Reaches src limit m m'' := by
  obtain ⟨us, h⟩ := h
  exact ⟨ts ++ us, .step hstep h⟩

theorem Reaches.invariant {P : Machine σ ε → Prop} (h : Reaches src limit m m') (hm : P m)
    (hstep : ∀ m ts m', P m → m.step src limit = some (ts, m') → P m') : P m' := by
  obtain ⟨ts, h⟩ := h
  induction h with
  | refl => exact hm
  | step hnext _ ih => exact ih (hstep _ _ _ hm hnext)

theorem reaches_after (m : Machine σ ε) (n : Nat) :
    Reaches src limit m (m.after src limit n) := by
  induction n generalizing m with
  | zero => exact .refl
  | succ n ih =>
    rw [Machine.after]
    cases hstep : m.step src limit with
    | none => exact .refl
    | some result => exact .head hstep (ih result.2)

/-- Steps are determined: a run that comes to an end goes through every state that is reached. -/
theorem Reaches.to_end {n n' : Machine σ ε} (h : Reaches src limit m n)
    (h' : Reaches src limit m n') (hn' : n'.step src limit = none) : Reaches src limit n n' := by
  obtain ⟨ts, h⟩ := h
  obtain ⟨us, h'⟩ := h'
  induction h generalizing us with
  | refl => exact ⟨us, h'⟩
  | step hstep _ ih =>
    cases h' with
    | refl =>
      rw [hn'] at hstep
      cases hstep
    | step hstep' h' =>
      rw [hstep] at hstep'
      cases hstep'
      exact ih _ h'

theorem Reaches.unique {n n' : Machine σ ε} (h : Reaches src limit m n)
    (h' : Reaches src limit m n') (hn : n.step src limit = none)
    (hn' : n'.step src limit = none) : n = n' := by
  obtain ⟨ts, hrun⟩ := h.to_end h' hn'
  cases hrun with
  | refl => rfl
  | step hstep _ =>
    rw [hn] at hstep
    cases hstep

section Step

variable {core next : Core ε} {look : Token → Bool × Core ε} {c c' : Cursor σ} {rest rest' : σ}
  {t : Token}

theorem step_silent (hmove : core.move limit = .silent next) :
    Machine.step src limit ⟨core, c⟩ = some ([], ⟨next, c⟩) := by
  simp only [Machine.step, hmove]

theorem step_held (hmove : core.move limit = .look look) :
    Machine.step src limit ⟨core, ⟨some t, rest⟩⟩ = some ([], .looked (look t) t rest) := by
  simp only [Machine.step, hmove]

theorem step_pull (hmove : core.move limit = .look look) (hnext : src.next rest = (.ok t, rest')) :
    Machine.step src limit ⟨core, ⟨none, rest⟩⟩ = some ([t], .looked (look t) t rest') := by
  simp only [Machine.step, hmove, hnext]

theorem step_failure {e : ε} (hmove : core.move limit = .look look)
    (hnext : src.next rest = (.error e, rest')) :
    Machine.step src limit ⟨core, ⟨none, rest⟩⟩ =
      some ([], ⟨core.fail (.stop (.source e)), ⟨none, rest'⟩⟩) := by
  simp only [Machine.step, hmove, hnext]

/-- A step goes on without a token, or looks at the one that is held, or takes one from the source,
or fails with the source. -/
theorem step_cases {ts : List Token} (h : Machine.step src limit ⟨core, c⟩ = some (ts, m')) :
    (∃ next, core.move limit = .silent next ∧ ts = [] ∧ m' = ⟨next, c⟩) ∨
    (∃ look t, core.move limit = .look look ∧ c.held = some t ∧ ts = [] ∧
      m' = .looked (look t) t c.rest) ∨
    (∃ look t rest, core.move limit = .look look ∧ c.held = none ∧
      src.next c.rest = (.ok t, rest) ∧ ts = [t] ∧ m' = .looked (look t) t rest) ∨
    ∃ look e rest, core.move limit = .look look ∧ c.held = none ∧
      src.next c.rest = (.error e, rest) ∧ ts = [] ∧
      m' = ⟨core.fail (.stop (.source e)), ⟨none, rest⟩⟩ := by
  obtain ⟨held, rest⟩ := c
  cases hmove : core.move limit with
  | halt =>
    simp only [Machine.step, hmove] at h
    cases h
  | silent next =>
    rw [step_silent hmove] at h
    cases h
    exact .inl ⟨next, rfl, rfl, rfl⟩
  | look look =>
    cases held with
    | some t =>
      rw [step_held hmove] at h
      cases h
      exact .inr (.inl ⟨look, t, rfl, rfl, rfl, rfl⟩)
    | none =>
      obtain ⟨item, rest', hnext⟩ : ∃ item rest', src.next rest = (item, rest') := ⟨_, _, rfl⟩
      cases item with
      | ok t =>
        rw [step_pull hmove hnext] at h
        cases h
        exact .inr (.inr (.inl ⟨look, t, rest', rfl, rfl, hnext, rfl, rfl⟩))
      | error e =>
        rw [step_failure hmove hnext] at h
        cases h
        exact .inr (.inr (.inr ⟨look, e, rest', rfl, rfl, hnext, rfl, rfl⟩))

theorem exists_look (hmove : core.move limit = .look look) (c : Cursor σ) :
    (∃ ts t rest, Machine.step src limit ⟨core, c⟩ = some (ts, .looked (look t) t rest)) ∨
    ∃ e rest, Machine.step src limit ⟨core, c⟩ =
      some ([], ⟨core.fail (.stop (.source e)), ⟨none, rest⟩⟩) := by
  obtain ⟨held, rest⟩ := c
  cases held with
  | some t => exact .inl ⟨[], t, rest, step_held hmove⟩
  | none =>
    obtain ⟨item, rest', hnext⟩ : ∃ item rest', src.next rest = (item, rest') := ⟨_, _, rfl⟩
    cases item with
    | ok t => exact .inl ⟨[t], t, rest', step_pull hmove hnext⟩
    | error e => exact .inr ⟨e, rest', step_failure hmove hnext⟩

theorem reaches_silent (hmove : core.move limit = .silent next) :
    Reaches src limit ⟨core, c⟩ ⟨next, c⟩ :=
  .head (step_silent hmove) .refl

theorem reaches_look (hmove : core.move limit = .look look) (hpeek : peek src c = .ok t c') :
    Reaches src limit ⟨core, c⟩ (.looked (look t) t c'.rest) := by
  obtain ⟨held, rest⟩ := c
  cases held with
  | some u =>
    cases hpeek
    exact .head (step_held hmove) .refl
  | none =>
    obtain ⟨item, rest', hnext⟩ : ∃ item rest', src.next rest = (item, rest') := ⟨_, _, rfl⟩
    simp only [peek, hnext] at hpeek
    cases item with
    | error e => cases hpeek
    | ok u =>
      cases hpeek
      exact .head (step_pull hmove hnext) .refl

theorem reaches_fail {s : Stop ε} (hmove : core.move limit = .look look)
    (hpeek : peek src c = .error s c') :
    Reaches src limit ⟨core, c⟩ ⟨core.fail (.stop s), c'⟩ := by
  obtain ⟨held, rest⟩ := c
  cases held with
  | some u => cases hpeek
  | none =>
    obtain ⟨item, rest', hnext⟩ : ∃ item rest', src.next rest = (item, rest') := ⟨_, _, rfl⟩
    simp only [peek, hnext] at hpeek
    cases item with
    | ok u => cases hpeek
    | error e =>
      cases hpeek
      exact .head (step_failure hmove hnext) .refl

end Step

/-- The tokens of a run come from the source one by one. A source that cannot fail gives nothing
else. -/
theorem Run.pulls {src : TokenSource σ Empty} {m m' : Machine σ Empty} {ts : List Token}
    (h : Run src limit m ts m') : Pulls src m.cursor.rest ts m'.cursor.rest := by
  induction h with
  | refl => exact .nil
  | step hstep _ ih =>
    refine Pulls.append ?_ ih
    obtain ⟨next, -, rfl, rfl⟩ | ⟨look, t, -, -, rfl, rfl⟩ |
      ⟨look, t, rest, -, -, hnext, rfl, rfl⟩ | ⟨look, e, -⟩ := step_cases hstep
    · exact .nil
    · exact .nil
    · exact .cons hnext .nil
    · exact e.elim

end Runs

section Answers

variable (src : TokenSource σ ε) (limit : Nat)

/-- From `m`, the call that was made with this depth and this stack comes to an end with the given
result. -/
def Returns (m : Machine σ ε) (depth : Nat) (stack : List Frame) :
    EStateM.Result (Stop ε) (Cursor σ) Tree → Prop
  | .ok tree c => Reaches src limit m ⟨⟨depth, tree.height, .done tree.expr, stack⟩, c⟩
  | .error s c => ∃ fault height, fault.toStop = s ∧
      Reaches src limit m ⟨⟨depth, height, .failed fault, stack⟩, c⟩

/-- Called at this depth, the phrase `r` returns what the step `p` gives. The height that a call
finds does not matter. -/
def Computes (depth : Nat) (r : Phrase) (p : Step σ ε Tree) : Prop :=
  ∀ height stack c, Returns src limit ⟨⟨depth, height, .call r, stack⟩, c⟩ depth stack (p c)

variable {src limit} {depth : Nat} {stack : List Frame}

theorem Returns.head {m m' : Machine σ ε} {result : EStateM.Result (Stop ε) (Cursor σ) Tree}
    (h : Reaches src limit m m') (h' : Returns src limit m' depth stack result) :
    Returns src limit m depth stack result := by
  cases result with
  | ok tree c => exact h.trans h'
  | error s c =>
    obtain ⟨fault, height, hstop, h'⟩ := h'
    exact ⟨fault, height, hstop, h.trans h'⟩

/-- A call that has made another one goes on with the result of that one. -/
theorem Returns.resume {m : Machine σ ε} {frame : Frame} {tree : Tree} {c : Cursor σ}
    (h : Returns src limit m depth (frame :: stack) (.ok tree c)) :
    Reaches src limit m
      ⟨Core.resume limit ⟨depth, tree.height, .done tree.expr, stack⟩ tree.expr frame, c⟩ :=
  h.trans (reaches_silent rfl)

theorem Returns.unwind {m : Machine σ ε} {frame : Frame} {s : Stop ε} {c : Cursor σ}
    (h : Returns src limit m depth (frame :: stack) (.error s c)) :
    ∃ fault height, fault.toStop = s ∧
      Reaches src limit m ⟨Core.unwind ⟨depth, height, .failed fault, stack⟩ frame, c⟩ := by
  obtain ⟨fault, height, hstop, h⟩ := h
  exact ⟨fault, height, hstop, h.trans (reaches_silent rfl)⟩

theorem ne_eof_of_mem_operators {l : Level} {k : Kind} (h : k ∈ l.operators) : k ≠ .eof := by
  rintro rfl
  cases l <;> simp [Level.operators] at h

/-- No look uses up an end token. -/
theorem Core.Looks.left_of_eof {core : Core ε} {look : Token → Bool × Core ε}
    (h : core.Looks limit look) {t : Token} (ht : t.kind = .eof) : (look t).1 = false := by
  cases h with
  | primary => simp [Core.primaryLook, literal?, ht]
  | unary =>
    simp only [Core.unaryLook, ht]
    split <;> rfl
  | @loop _ _ _ l _ _ =>
    have hop : t.kind ∉ l.operators := fun h => ne_eof_of_mem_operators h ht
    rw [Core.loopLook, if_neg hop]
  | close => simp [Core.closeLook, ht]
  | finish => simp [Core.endLook, ht]

theorem accept_of_error {kinds : List Kind} {c c' : Cursor σ} {s : Stop ε}
    (h : peek src c = .error s c') : accept src kinds c = .error s c' := by
  rw [accept, bind_of_error h]

theorem looked_of_not_used {core : Core ε} {c c' : Cursor σ} {t : Token}
    (h : peek src c = .ok t c') : Machine.looked (false, core) t c'.rest = ⟨core, c'⟩ := by
  have hheld := held_of_peek h
  obtain ⟨held, rest⟩ := c'
  subst hheld
  rfl

theorem returns_loop {l : Level} {operand : Step σ ε Tree}
    (hoperand : Computes src limit depth l.operand operand) (left : Tree) :
    ∀ height c, Returns src limit ⟨⟨depth, height, .loop l left.expr left.height, stack⟩, c⟩ depth
      stack (chainFrom src limit l.operators operand left c) := by
  -- on the rounds of the loop: each makes the left operand higher, up to the limit
  induction left using chainFrom.induct limit with
  | case1 left ih =>
    intro height c
    cases hpeek : peek src c with
    | error s c' =>
      rw [chainFrom, bind_of_error (accept_of_error hpeek)]
      exact ⟨.stop s, height, rfl, reaches_fail rfl hpeek⟩
    | ok t c' =>
      have hlook : Reaches src limit ⟨⟨depth, height, .loop l left.expr left.height, stack⟩, c⟩ _ :=
        reaches_look rfl hpeek
      have haccept := accept_of_peek l.operators hpeek
      by_cases hop : t.kind ∈ l.operators
      · rw [Core.loopLook, if_pos hop] at hlook
        rw [if_pos ⟨ne_eof_of_mem_operators hop, hop⟩] at haccept
        have hright := hoperand height (.right l left.expr left.height t :: stack) ⟨none, c'.rest⟩
        cases hrun : operand ⟨none, c'.rest⟩ with
        | error s c₂ =>
          rw [hrun] at hright
          rw [chainFrom, bind_of_ok haccept]
          simp only [if_true]
          rw [bind_of_error hrun]
          exact Returns.head hlook hright.unwind
        | ok right c₂ =>
          rw [hrun] at hright
          have hresume := hlook.trans hright.resume
          rw [Core.resume] at hresume
          by_cases hlimit : max left.height right.height + 1 ≤ limit
          · rw [if_pos hlimit] at hresume
            rw [chainFrom_of_operator haccept hrun hlimit]
            exact Returns.head hresume (ih t right hlimit _ c₂)
          · -- the new node would be too high; the register has the height of the right operand
            rw [if_neg hlimit] at hresume
            rw [chainFrom, bind_of_ok haccept]
            simp only [if_true]
            rw [bind_of_ok hrun, dif_neg hlimit]
            exact ⟨.limit t, right.height, rfl, hresume⟩
      · rw [Core.loopLook, if_neg hop, looked_of_not_used hpeek] at hlook
        rw [if_neg fun h => hop h.2] at haccept
        rw [chainFrom_of_other haccept]
        exact hlook

theorem computes_chain {l : Level} {operand : Step σ ε Tree}
    (hoperand : Computes src limit depth l.operand operand) :
    Computes src limit depth (.level l) (chain src limit l.operators operand) := by
  intro height stack c
  have hcall : Reaches src limit ⟨⟨depth, height, .call (.level l), stack⟩, c⟩ _ :=
    reaches_silent rfl
  have hfirst := hoperand height (.first l :: stack) c
  cases hrun : operand c with
  | error s c' =>
    rw [hrun] at hfirst
    rw [chain_of_error hrun]
    exact Returns.head hcall hfirst.unwind
  | ok first c' =>
    rw [hrun] at hfirst
    rw [chain, bind_of_ok hrun]
    exact Returns.head (hcall.trans hfirst.resume) (returns_loop hoperand first _ c')

theorem computes_equality {operand : Step σ ε Tree}
    (hoperand : Computes src limit depth .unary operand) :
    Computes src limit depth (.level .equality) (equality src limit operand) := by
  have hfactor := computes_chain (l := .factor) hoperand
  have hterm := computes_chain (l := .term) hfactor
  have hcomparison := computes_chain (l := .comparison) hterm
  exact computes_chain (l := .equality) hcomparison

theorem returns_group {inner : Step σ ε Tree}
    (hinner : Computes src limit depth (.level .equality) inner) (height : Nat) (c : Cursor σ) :
    Returns src limit ⟨⟨depth, height, .call (.level .equality), .group :: stack⟩, c⟩ depth stack
      (group src inner c) := by
  have hinside := hinner height (.group :: stack) c
  cases hrun : inner c with
  | error s c' =>
    rw [hrun] at hinside
    rw [group, bind_of_error hrun]
    exact hinside.unwind
  | ok tree c' =>
    rw [hrun] at hinside
    have hclose := hinside.resume
    rw [group, bind_of_ok hrun]
    cases hpeek : peek src c' with
    | error s c₂ =>
      rw [bind_of_error (accept_of_error hpeek)]
      exact ⟨.stop s, tree.height, rfl, hclose.trans (reaches_fail rfl hpeek)⟩
    | ok t c₂ =>
      have hlook := hclose.trans (reaches_look rfl hpeek)
      have haccept := accept_of_peek [.rightParen] hpeek
      rw [Core.closeLook] at hlook
      by_cases hright : t.kind = .rightParen
      · rw [if_pos hright] at hlook
        rw [if_pos (by simp [hright])] at haccept
        rw [bind_of_ok haccept]
        exact hlook
      · -- the token in the place of the parenthesis stays held
        rw [if_neg hright, looked_of_not_used hpeek] at hlook
        rw [if_neg (by simp [hright])] at haccept
        rw [bind_of_ok haccept]
        exact ⟨.stop (.syntax_ (.expected .rightParen t)), tree.height, rfl, hlook⟩

theorem computes_primary {inner : Step σ ε Tree}
    (hinner : Computes src limit depth (.level .equality) inner) :
    Computes src limit depth .primary (primary src inner) := by
  intro height stack c
  cases hpeek : peek src c with
  | error s c' =>
    rw [primary, bind_of_error hpeek]
    exact ⟨.stop s, height, rfl, reaches_fail rfl hpeek⟩
  | ok t c' =>
    have hlook : Reaches src limit ⟨⟨depth, height, .call .primary, stack⟩, c⟩ _ :=
      reaches_look rfl hpeek
    rw [primary_of_peek hpeek]
    rw [Core.primaryLook] at hlook
    split
    · next hleft =>
      rw [if_pos hleft] at hlook
      exact Returns.head hlook (returns_group hinner height ⟨none, c'.rest⟩)
    · next hleft =>
      rw [if_neg hleft] at hlook
      cases hvalue : literal? t with
      | some v =>
        simp only [hvalue] at hlook
        exact hlook
      | none =>
        simp only [hvalue] at hlook
        refine ⟨.stop (.syntax_ (.unexpected t)), height, rfl, ?_⟩
        -- a number or a string that has no value is used up, any other token stays held
        split
        · next hkind =>
          rw [decide_eq_true hkind] at hlook
          exact hlook
        · next hkind =>
          rw [decide_eq_false hkind, looked_of_not_used hpeek] at hlook
          exact hlook

theorem accept_of_mem_unary {c c' : Cursor σ} {t : Token} (h : peek src c = .ok t c')
    (hop : t.kind ∈ [Kind.bang, .minus]) :
    accept src [.bang, .minus] c = .ok (t, true) ⟨none, c'.rest⟩ := by
  rw [accept_of_peek [.bang, .minus] h, if_pos]
  refine ⟨?_, hop⟩
  intro heof
  rw [heof] at hop
  exact absurd hop (by decide)

theorem accept_of_not_mem {kinds : List Kind} {c c' : Cursor σ} {t : Token}
    (h : peek src c = .ok t c') (hop : t.kind ∉ kinds) :
    accept src kinds c = .ok (t, false) c' := by
  rw [accept_of_peek kinds h, if_neg fun h => hop h.2]

/-- With no room left, a unary call exceeds the limit as soon as it has looked at a token. -/
theorem computes_unary_zero : Computes src limit limit .unary (unary src limit 0) := by
  intro height stack c
  have hcall : Reaches src limit ⟨⟨limit, height, .call .unary, stack⟩, c⟩ _ :=
    reaches_silent rfl
  rw [unary]
  cases hpeek : peek src c with
  | error s c' =>
    rw [bind_of_error (accept_of_error hpeek)]
    exact ⟨.stop s, height, rfl, hcall.trans (reaches_fail rfl hpeek)⟩
  | ok t c' =>
    have hlook := hcall.trans (reaches_look rfl hpeek)
    rw [Core.unaryLook, if_pos (Nat.lt_succ_self limit)] at hlook
    by_cases hop : t.kind ∈ [Kind.bang, .minus]
    · rw [decide_eq_true hop] at hlook
      rw [bind_of_ok (accept_of_mem_unary hpeek hop)]
      exact ⟨.limit t, height, rfl, hlook⟩
    · rw [decide_eq_false hop, looked_of_not_used hpeek] at hlook
      rw [bind_of_ok (accept_of_not_mem hpeek hop)]
      exact ⟨.limit t, height, rfl, hlook⟩

theorem computes_unary {room : Nat} (hroom : depth + room = limit) :
    Computes src limit depth .unary (unary src limit room) := by
  -- on the calls that may still be opened: the machine counts them up, the parser down
  induction room generalizing depth with
  | zero =>
    rw [Nat.add_zero] at hroom
    subst hroom
    exact computes_unary_zero
  | succ room ih =>
    intro height stack c
    have hinner : Computes src limit (depth + 1) .unary (unary src limit room) := ih (by omega)
    have hdepth : ¬ limit < depth + 1 := by omega
    have hcall : Reaches src limit ⟨⟨depth, height, .call .unary, stack⟩, c⟩ _ :=
      reaches_silent rfl
    cases hpeek : peek src c with
    | error s c' =>
      rw [unary, bind_of_error (accept_of_error hpeek)]
      exact ⟨.stop s, height, rfl, hcall.trans (reaches_fail rfl hpeek)⟩
    | ok t c' =>
      have hlook := hcall.trans (reaches_look rfl hpeek)
      rw [Core.unaryLook, if_neg hdepth] at hlook
      by_cases hop : t.kind ∈ [Kind.bang, .minus]
      · rw [if_pos hop] at hlook
        have haccept := accept_of_mem_unary hpeek hop
        -- the operator waits in a frame while the operand is read
        have hoperand := hinner height (.unary (some t) :: stack) ⟨none, c'.rest⟩
        cases hrun : unary src limit room ⟨none, c'.rest⟩ with
        | error s c₂ =>
          rw [hrun] at hoperand
          rw [unary, bind_of_ok haccept]
          simp only [if_true]
          rw [bind_of_error hrun]
          exact Returns.head hlook hoperand.unwind
        | ok tree c₂ =>
          rw [hrun] at hoperand
          have hresume := hlook.trans hoperand.resume
          rw [Core.resume] at hresume
          by_cases hlimit : tree.height + 1 ≤ limit
          · simp only [if_pos hlimit] at hresume
            rw [unary_of_operator haccept hrun hlimit]
            exact hresume
          · simp only [if_neg hlimit] at hresume
            rw [unary, bind_of_ok haccept]
            simp only [if_true]
            rw [bind_of_ok hrun, if_neg hlimit]
            exact ⟨.limit t, tree.height + 1, rfl, hresume⟩
      · rw [if_neg hop, looked_of_not_used hpeek] at hlook
        -- no operator: the frame is there all the same, so that the counter goes down at the end
        have hprimary :=
          computes_primary (computes_equality hinner) height (.unary none :: stack) c'
        rw [unary_of_other (accept_of_not_mem hpeek hop)]
        cases hrun : primary src (equality src limit (unary src limit room)) c' with
        | error s c₂ =>
          rw [hrun] at hprimary
          exact Returns.head hlook hprimary.unwind
        | ok tree c₂ =>
          rw [hrun] at hprimary
          exact hlook.trans hprimary.resume

structure Memory (σ : Type) where
  cursor : Cursor σ
  depth : Nat
  height : Nat

def Memory.start (s : σ) : Memory σ :=
  ⟨.start s, 0, 0⟩

def Memory.call (p : Memory σ) : Machine σ ε :=
  ⟨⟨p.depth, p.height, .call (.level .equality), []⟩, p.cursor⟩

def Memory.returned (p : Memory σ) : Except (Fault ε) Expr → Machine σ ε
  | .ok e => ⟨⟨p.depth, p.height, .accepted e, []⟩, p.cursor⟩
  | .error fault => ⟨⟨p.depth, p.height, .failed fault, []⟩, p.cursor⟩

@[simp] theorem Memory.returned_cursor (p : Memory σ) (result : Except (Fault ε) Expr) :
    (p.returned result).cursor = p.cursor := by
  cases result <;> rfl

/-- `Call src limit p result p'`: a call of the parser `p` gives `result` and leaves `p'`. -/
def Call (src : TokenSource σ ε) (limit : Nat) (p : Memory σ) (result : Except (Fault ε) Expr)
    (p' : Memory σ) : Prop :=
  Reaches src limit p.call (p'.returned result)

theorem step_returned (p : Memory σ) (result : Except (Fault ε) Expr) :
    (p.returned result).step src limit = none := by
  cases result <;> rfl

theorem Call.unique {p p₁ p₂ : Memory σ} {r₁ r₂ : Except (Fault ε) Expr}
    (h₁ : Call src limit p r₁ p₁) (h₂ : Call src limit p r₂ p₂) : r₁ = r₂ ∧ p₁ = p₂ := by
  have h := Reaches.unique h₁ h₂ (step_returned p₁ r₁) (step_returned p₂ r₂)
  obtain ⟨c₁, d₁, n₁⟩ := p₁
  obtain ⟨c₂, d₂, n₂⟩ := p₂
  cases r₁ <;> cases r₂ <;> cases h <;> exact ⟨rfl, rfl⟩

/-- The machine of a parser that is not in a call comes to the end of one, with the answer of the
parser and its counter of calls as it was. -/
theorem call_of_whole {p : Memory σ} (hp : p.depth = 0) :
    ∃ result p', Call src limit p result p' ∧ p'.depth = 0 ∧
      whole src limit p.cursor =
        match result with
        | .ok e => .ok e p'.cursor
        | .error fault => .error fault.toStop p'.cursor := by
  obtain ⟨c, depth, height⟩ := p
  change depth = 0 at hp
  subst hp
  have hrun : Returns src limit ⟨⟨0, height, .call (.level .equality), []⟩, c⟩ 0 [] _ :=
    computes_equality (computes_unary (Nat.zero_add limit)) height [] c
  rw [whole]
  cases hresult : equality src limit (unary src limit limit) c with
  | error s c' =>
    rw [hresult] at hrun
    obtain ⟨fault, height', rfl, hreaches⟩ := hrun
    exact ⟨.error fault, ⟨c', 0, height'⟩, hreaches, rfl, bind_of_error hresult⟩
  | ok tree c' =>
    rw [hresult] at hrun
    change Reaches _ _ _ _ at hrun
    simp only [bind_of_ok hresult]
    cases hpeek : peek src c' with
    | error s c₂ =>
      refine ⟨.error (.stop s), ⟨c₂, 0, tree.height⟩, ?_, rfl, bind_of_error hpeek⟩
      exact hrun.trans (reaches_fail rfl hpeek)
    | ok t c₂ =>
      have hlook := hrun.trans (reaches_look rfl hpeek)
      simp only [bind_of_ok hpeek]
      rw [Core.endLook] at hlook
      by_cases heof : t.kind = .eof
      · rw [if_pos heof, looked_of_not_used hpeek] at hlook
        exact ⟨.ok tree.expr, ⟨c₂, 0, tree.height⟩, hlook, rfl, by rw [if_pos heof]; rfl⟩
      · rw [if_neg heof, looked_of_not_used hpeek] at hlook
        exact ⟨.error (.stop (.syntax_ (.unexpected t))), ⟨c₂, 0, tree.height⟩, hlook, rfl,
          by rw [if_neg heof]; rfl⟩

theorem exists_call (src : TokenSource σ ε) (limit : Nat) {p : Memory σ} (hp : p.depth = 0) :
    ∃ result p', Call src limit p result p' := by
  obtain ⟨result, p', hcall, -⟩ := call_of_whole hp
  exact ⟨result, p', hcall⟩

theorem call_of_whole_eq_ok {p : Memory σ} {e : Expr} {c : Cursor σ}
    (hp : p.depth = 0) (h : whole src limit p.cursor = .ok e c) :
    ∃ p', Call src limit p (.ok e) p' := by
  obtain ⟨result, p', hcall, -, hwhole⟩ := @call_of_whole σ ε src limit p hp
  rw [h] at hwhole
  cases result with
  | error fault => cases hwhole
  | ok e' =>
    cases hwhole
    exact ⟨p', hcall⟩

theorem Call.parse_eq {p p' : Memory σ} {result : Except (Fault ε) Expr}
    (h : Call src maxDepth p result p') (hp : p.depth = 0) :
    parse src p.cursor = (result.mapError Fault.toStop, p'.cursor) := by
  obtain ⟨result', p₁, hcall, -, hwhole⟩ := call_of_whole hp
  obtain ⟨rfl, rfl⟩ := h.unique hcall
  rw [parse, hwhole]
  cases result <;> rfl

theorem exists_parse_call (src : TokenSource σ ε) (c : Cursor σ) (height : Nat) :
    ∃ result p, Call src maxDepth ⟨c, 0, height⟩ result p ∧
      parse src c = (result.mapError Fault.toStop, p.cursor) := by
  obtain ⟨result, p, hcall⟩ := exists_call src maxDepth (p := ⟨c, 0, height⟩) rfl
  exact ⟨result, p, hcall, hcall.parse_eq rfl⟩

end Answers

end ExprCalc.Parser
