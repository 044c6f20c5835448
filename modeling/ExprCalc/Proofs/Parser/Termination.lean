import ExprCalc.Proofs.Parser.Weight

namespace ExprCalc.Parser

open Grammar

variable {σ ε : Type} {src : TokenSource σ ε} {limit : Nat}

def Tree.join (left : Tree) (op : Token) (right : Tree) : Tree :=
  ⟨.binary left.expr op right.expr, max left.height right.height + 1⟩

/-- A call of a chain of operators, with the depth at which it runs and the calls that wait for
it. -/
structure Chain where
  level : Level
  depth : Nat
  stack : List Frame

namespace Chain

/-- The machine at the place where one more operator may follow `left`. -/
def loop (k : Chain) (left : Tree) (height : Nat) (c : Cursor σ) : Machine σ ε :=
  ⟨⟨k.depth, height, .loop k.level left.expr left.height, k.stack⟩, c⟩

def waiting (k : Chain) (left : Tree) (op : Token) : List Frame :=
  .right k.level left.expr left.height op :: k.stack

def operand (k : Chain) (left : Tree) (op : Token) (height : Nat) (c : Cursor σ) : Machine σ ε :=
  ⟨⟨k.depth, height, .call k.level.operand, k.waiting left op⟩, c⟩

/-- One turn of a chain. A round leads to the next turn, with an operator and its operand added to
the tree. Otherwise the chain returns its tree, or it fails: with its source, with an operand, or
because the tree gets too high. -/
inductive Turn (src : TokenSource σ ε) (limit : Nat) (k : Chain) :
    Machine σ ε → Option (Machine σ ε) → Prop
  | round {left right : Tree} {op : Token} {height : Nat} {c c₁ c₂ : Cursor σ} {ts : List Token}
      (hop : (k.loop left height c).step src limit = some (ts, k.operand left op height c₁))
      (hoperand : Returns src limit (k.operand left op height c₁) k.depth (k.waiting left op)
        (.ok right c₂))
      (hlimit : (left.join op right).height ≤ limit) :
      Turn src limit k (k.loop left height c) (some (k.loop (left.join op right) right.height c₂))
  | tooHigh {left right : Tree} {op : Token} {height : Nat} {c c₁ c₂ : Cursor σ} {ts : List Token}
      (hop : (k.loop left height c).step src limit = some (ts, k.operand left op height c₁))
      (hoperand : Returns src limit (k.operand left op height c₁) k.depth (k.waiting left op)
        (.ok right c₂))
      (hlimit : limit < (left.join op right).height) :
      Turn src limit k (k.loop left height c) none
  | operandFails {left : Tree} {op : Token} {height : Nat} {c c₁ c₂ : Cursor σ} {ts : List Token}
      {stop : Stop ε}
      (hop : (k.loop left height c).step src limit = some (ts, k.operand left op height c₁))
      (hoperand : Returns src limit (k.operand left op height c₁) k.depth (k.waiting left op)
        (.error stop c₂)) :
      Turn src limit k (k.loop left height c) none
  | sourceFails {left : Tree} {height : Nat} {c c₁ : Cursor σ} {ts : List Token} {e : ε}
      (hstep : (k.loop left height c).step src limit =
        some (ts, ⟨⟨k.depth, height, .failed (.stop (.source e)), k.stack⟩, c₁⟩)) :
      Turn src limit k (k.loop left height c) none
  | returns {left : Tree} {height : Nat} {c c₁ : Cursor σ} {ts : List Token}
      (hstep : (k.loop left height c).step src limit =
        some (ts, ⟨⟨k.depth, left.height, .done left.expr, k.stack⟩, c₁⟩)) :
      Turn src limit k (k.loop left height c) none

/-- `Rounds src limit k n m m'`: in `n` completed rounds, the chain `k` gets from `m` to `m'`. -/
inductive Rounds (src : TokenSource σ ε) (limit : Nat) (k : Chain) :
    Nat → Machine σ ε → Machine σ ε → Prop
  | zero {m : Machine σ ε} : Rounds src limit k 0 m m
  | succ {n : Nat} {m m' m'' : Machine σ ε} (hturn : Turn src limit k m (some m'))
      (h : Rounds src limit k n m' m'') : Rounds src limit k (n + 1) m m''

end Chain

/-- Where there is room for it, an operand is parsed. -/
theorem exists_computes {depth : Nat} (hdepth : depth ≤ limit) (l : Level) :
    ∃ operand : Step σ ε Tree, Computes src limit depth l.operand operand := by
  have hunary : Computes src limit depth .unary _ := computes_unary (Nat.add_sub_cancel' hdepth)
  have hfactor := computes_chain (l := .factor) hunary
  have hterm := computes_chain (l := .term) hfactor
  have hcomparison := computes_chain (l := .comparison) hterm
  cases l with
  | equality => exact ⟨_, hcomparison⟩
  | comparison => exact ⟨_, hterm⟩
  | term => exact ⟨_, hfactor⟩
  | factor => exact ⟨_, hunary⟩

namespace Chain

variable {k : Chain}

theorem exists_turn (hdepth : k.depth ≤ limit) (left : Tree) (height : Nat) (c : Cursor σ) :
    Turn src limit k (k.loop left height c) none ∨
    ∃ op right c', (left.join op right).height ≤ limit ∧
      Turn src limit k (k.loop left height c)
        (some (k.loop (left.join op right) right.height c')) := by
  obtain ⟨operand, hcomputes⟩ := @exists_computes σ ε src limit _ hdepth k.level
  obtain ⟨ts, t, rest, hstep⟩ | ⟨e, rest, hstep⟩ := @exists_look σ ε src limit
    ⟨k.depth, height, .loop k.level left.expr left.height, k.stack⟩ _ rfl c
  · by_cases hop : t.kind ∈ k.level.operators
    · rw [Core.loopLook, if_pos hop] at hstep
      have hreturns := hcomputes height (k.waiting left t) ⟨none, rest⟩
      cases hrun : operand ⟨none, rest⟩ with
      | error stop c' =>
        rw [hrun] at hreturns
        exact .inl (.operandFails hstep hreturns)
      | ok right c' =>
        rw [hrun] at hreturns
        by_cases hlimit : (left.join t right).height ≤ limit
        · exact .inr ⟨t, right, c', hlimit, .round hstep hreturns hlimit⟩
        · exact .inl (.tooHigh hstep hreturns (Nat.lt_of_not_le hlimit))
    · rw [Core.loopLook, if_neg hop] at hstep
      exact .inl (.returns hstep)
  · exact .inl (.sourceFails hstep)

theorem height_lt_join (left : Tree) (op : Token) (right : Tree) :
    left.height < (left.join op right).height :=
  Nat.lt_succ_of_le (Nat.le_max_left left.height right.height)

/-- After some rounds, a chain returns or fails. -/
theorem exists_rounds (hdepth : k.depth ≤ limit) (left : Tree) (height : Nat) (c : Cursor σ) :
    ∃ n m, Rounds src limit k n (k.loop left height c) m ∧ Turn src limit k m none := by
  -- every round raises the tree, which stays within the limit
  induction hroom : limit - left.height using Nat.strongRecOn generalizing left height c with
  | ind room ih =>
    obtain hturn | ⟨op, right, c', hlimit, hturn⟩ :=
      @exists_turn σ ε src limit k hdepth left height c
    · exact ⟨0, _, .zero, hturn⟩
    · have hlt := height_lt_join left op right
      obtain ⟨n, m, hrounds, hend⟩ :=
        ih _ (by omega) (left.join op right) right.height c' rfl
      exact ⟨n + 1, m, .succ hturn hrounds, hend⟩

theorem Rounds.add_le {n : Nat} {m m' : Machine σ ε} (h : Rounds src limit k n m m') {l : Level}
    {left : Expr} {height : Nat} (hm : m.core.control = .loop l left height) :
    n = 0 ∨ height + n ≤ limit := by
  induction h generalizing left height with
  | zero => exact .inl rfl
  | succ hturn _ ih =>
    cases hturn with
    | @round left right op _ _ _ _ _ _ _ hlimit =>
      cases hm
      have hlt := height_lt_join left op right
      obtain rfl | hle := ih rfl
      · exact .inr (by omega)
      · exact .inr (by omega)

end Chain

/-- A tree that is at hand has been counted. -/
def Control.Counted (height : Nat) : Control ε → Prop
  | .loop _ _ h => 0 < h
  | .close _ | .done _ => 0 < height
  | .call _ | .unary | .accepted _ | .failed _ => True

namespace Core

variable {core next : Core ε}

theorem counted_fail (core : Core ε) (fault : Fault ε) :
    (core.fail fault).control.Counted (core.fail fault).height := by
  rw [fail_control]
  trivial

theorem GoesOn.counted (h : core.GoesOn limit next) (hcore : core.control.Counted core.height) :
    next.control.Counted next.height := by
  cases h with
  | level | unary => trivial
  | @resume _ _ e frame _ =>
    cases frame with
    | first | group => exact hcore
    | right l left h op =>
      rw [Core.resume]
      split
      · exact Nat.succ_pos _
      · trivial
    | unary op =>
      cases op with
      | none => exact hcore
      | some op =>
        rw [Core.resume]
        split
        · exact Nat.succ_pos _
        · trivial
  | @unwind _ _ _ frame _ => cases frame <;> trivial

theorem Looks.counted {look : Token → Bool × Core ε} (h : core.Looks limit look)
    (hcore : core.control.Counted core.height) (t : Token) :
    (look t).2.control.Counted (look t).2.height := by
  cases h with
  | primary =>
    rw [Core.primaryLook]
    split
    · trivial
    · split
      · exact Nat.one_pos
      · exact counted_fail _ _
  | unary =>
    rw [Core.unaryLook]
    split
    · exact counted_fail _ _
    · split <;> trivial
  | loop =>
    rw [Core.loopLook]
    split
    · trivial
    · exact hcore
  | close =>
    rw [Core.closeLook]
    split
    · exact hcore
    · exact counted_fail _ _
  | finish =>
    rw [Core.endLook]
    split
    · trivial
    · exact counted_fail _ _

end Core

theorem counted_step {m m' : Machine σ ε} {ts : List Token}
    (h : m.core.control.Counted m.core.height) (hstep : m.step src limit = some (ts, m')) :
    m'.core.control.Counted m'.core.height := by
  obtain ⟨core, c⟩ := m
  obtain ⟨next, hmove, -, rfl⟩ | ⟨look, t, hmove, -, -, rfl⟩ |
    ⟨look, t, rest, hmove, -, -, -, rfl⟩ | ⟨look, e, rest, -, -, -, -, rfl⟩ := step_cases hstep
  · exact (Core.goesOn_of_move hmove).counted h
  · exact (Core.looks_of_move hmove).counted h t
  · exact (Core.looks_of_move hmove).counted h t
  · exact Core.counted_fail core _

theorem Reaches.counted {p : Memory σ} {m : Machine σ ε} (h : Reaches src limit p.call m) :
    m.core.control.Counted m.core.height :=
  Reaches.invariant (P := fun m => m.core.control.Counted m.core.height) h trivial
    fun _ _ _ => counted_step

theorem Reaches.rounds_lt {p : Memory σ} {k : Chain} {left : Tree} {height n : Nat} {c : Cursor σ}
    {m : Machine σ ε} (h : Reaches src limit p.call (k.loop left height c))
    (hrounds : k.Rounds src limit n (k.loop left height c) m) : n ≤ limit - 1 := by
  have hpos : 0 < left.height := h.counted
  obtain rfl | hle := hrounds.add_le rfl
  · exact Nat.zero_le _
  · omega

/-- With one unary call more than the limit allows in progress, it is the running one, and it
fails. -/
theorem failed_of_full {m m' : Machine σ ε} {ts : List Token} (h : m.core.Sound limit)
    (hfull : m.core.active = limit + 1) (hstep : m.step src limit = some (ts, m')) :
    ∃ fault, m'.core.control = .failed fault := by
  obtain ⟨⟨depth, height, control, stack⟩, c⟩ := m
  have hcount := h.stack.count_le
  have hdepth := h.depth_eq
  rw [hfull] at hdepth
  cases control with
  | unary =>
    change depth = limit + 1 at hdepth
    obtain ⟨ts', t, rest, hlook⟩ | ⟨e, rest, hlook⟩ := @exists_look σ ε src limit
      ⟨depth, height, .unary, stack⟩ _ rfl c
    · rw [Core.unaryLook, if_pos (by simp only; omega), hstep] at hlook
      cases hlook
      exact ⟨_, fail_control _ _⟩
    · rw [hstep] at hlook
      cases hlook
      exact ⟨_, fail_control _ _⟩
  | _ =>
    simp only [Core.active, Control.isUnary, Bool.toNat_false] at hfull
    simp only at hcount
    omega

/-- A source that delivers the tokens of a sequence, one after the other, without an end. -/
def endless (f : Nat → Token) : TokenSource Nat Empty where
  next i := (.ok (f i), i + 1)

theorem pulls_endless {f : Nat → Token} {i j : Nat} {ts : List Token}
    (h : Pulls (endless f) i ts j) : j = i + ts.length := by
  induction h with
  | nil => rfl
  | cons hnext _ ih =>
    cases hnext
    rw [ih, List.length_cons]
    omega

/-- A bound on the steps of a call. It depends on the limit alone. -/
def callCost (limit : Nat) : Nat :=
  phraseCost limit limit (.level .equality)

theorem weight_start (c : Cursor σ) (height : Nat) :
    (Memory.call ⟨c, 0, height⟩ : Machine σ ε).core.weight limit = callCost limit :=
  rfl

theorem Call.after_eq {c : Cursor σ} {height : Nat} {result : Except (Fault ε) Expr} {p : Memory σ}
    (h : Call src limit ⟨c, 0, height⟩ result p) :
    (Memory.call ⟨c, 0, height⟩).after src limit (callCost limit) = p.returned result := by
  have hend := @step_after_weight σ ε src limit _ _ (Nat.le_of_eq (weight_start c height))
  exact (reaches_after _ _).unique h hend (step_returned p result)

theorem parse_endless_le (f : Nat → Token) (c : Cursor Nat) :
    (parse (endless f) c).2.rest ≤ c.rest + callCost maxDepth := by
  obtain ⟨result, p, ⟨ts, hrun⟩, hparse⟩ := exists_parse_call (endless f) c 0
  have hpulls := pulls_endless hrun.pulls
  rw [Memory.returned_cursor] at hpulls
  have hlength := hrun.length_le
  rw [weight_start] at hlength
  rw [hparse]
  change p.cursor.rest = c.rest + ts.length at hpulls
  change p.cursor.rest ≤ _
  omega

/-- How a call comes to its end, from the cursor `c` on and with any height left in the register. -/
structure Ends (src : TokenSource σ ε) (c : Cursor σ) (height : Nat) : Prop where
  returns : ∃ (result : Except (Fault ε) Expr) (p : Memory σ),
    (Memory.call ⟨c, 0, height⟩).after src maxDepth (callCost maxDepth) = p.returned result ∧
      parse src c = (result.mapError Fault.toStop, p.cursor)
  pulls_le : ∀ ts m, Run src maxDepth (Memory.call ⟨c, 0, height⟩) ts m →
    ts.length ≤ callCost maxDepth
  active_le : ∀ m, Reaches src maxDepth (Memory.call ⟨c, 0, height⟩) m →
    m.core.active ≤ maxDepth + 1
  full_fails : ∀ m, Reaches src maxDepth (Memory.call ⟨c, 0, height⟩) m →
    m.core.active = maxDepth + 1 → ∀ ts m', m.step src maxDepth = some (ts, m') →
      ∃ fault, m'.core.control = .failed fault
  rounds_end : ∀ (k : Chain) left h c',
    Reaches src maxDepth (Memory.call ⟨c, 0, height⟩) (k.loop left h c') →
      ∃ n m, k.Rounds src maxDepth n (k.loop left h c') m ∧ k.Turn src maxDepth m none
  rounds_le : ∀ (k : Chain) left h c',
    Reaches src maxDepth (Memory.call ⟨c, 0, height⟩) (k.loop left h c') →
      ∀ n m, k.Rounds src maxDepth n (k.loop left h c') m → n ≤ maxDepth - 1

/-- A call ends on every source, whatever has been called before. It makes a bounded number of steps
and takes a bounded number of tokens. There is at most one unary call more in progress than the
limit, and that one fails. A chain of operators returns or fails after some rounds, fewer than the
limit. So also of an endless stream, a call takes only so many tokens. -/
theorem call_ends_on_every_source (src : TokenSource σ ε) (c : Cursor σ) (height : Nat) :
    Ends src c height ∧ ∀ (f : Nat → Token) (held : Option Token) (i : Nat),
      (parse (endless f) ⟨held, i⟩).2.rest ≤ i + callCost maxDepth := by
  have hlimit : 0 < maxDepth := by decide
  refine ⟨⟨?_, ?_, ?_, ?_, ?_, ?_⟩, ?_⟩
  · obtain ⟨result, p, hcall, hparse⟩ := exists_parse_call src c height
    exact ⟨result, p, hcall.after_eq, hparse⟩
  · intro ts m hrun
    have hlength := hrun.length_le
    rw [weight_start] at hlength
    omega
  · intro m hreaches
    exact (Reaches.sound hlimit rfl hreaches).active_le
  · intro m hreaches hfull _ _
    exact failed_of_full (Reaches.sound hlimit rfl hreaches) hfull
  · intro k left h c' hreaches
    have hsound := Reaches.sound hlimit rfl hreaches
    -- the chain is inside as many unary calls as there are frames for them
    have hdepth : k.depth ≤ maxDepth := by
      have hactive : k.depth = k.stack.countP Frame.isUnary := hsound.depth_eq
      exact hactive ▸ hsound.stack.count_le
    exact Chain.exists_rounds hdepth left h c'
  · intro k left h c' hreaches _ _
    exact hreaches.rounds_lt
  · exact fun f held i => parse_endless_le f ⟨held, i⟩

end ExprCalc.Parser
