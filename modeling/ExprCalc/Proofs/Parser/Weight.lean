import ExprCalc.Proofs.Parser.Bookkeeping

/-!
How much a call can still do. A core is weighed by a number that every step makes smaller: a unary
call weighs more than all that it can call, which has room for one unary call less, and a chain of
operators weighs one operand for every round that the height of its tree leaves to it. So the weight
of a call bounds its steps and the tokens that it takes, whatever its source delivers.
-/

namespace ExprCalc.Parser

open Grammar

variable {σ ε : Type} {src : TokenSource σ ε} {limit : Nat}

/-- A bound on the steps of `n` rounds, each with an operator and an operand of the given cost, and
of the look that ends them. -/
def roundsCost (n operand : Nat) : Nat :=
  n * (operand + 1) + 1

theorem roundsCost_succ (n operand : Nat) :
    roundsCost (n + 1) operand = roundsCost n operand + operand + 1 := by
  rw [roundsCost, roundsCost, Nat.succ_mul]
  omega

theorem roundsCost_mono {n n' : Nat} (h : n ≤ n') (operand : Nat) :
    roundsCost n operand ≤ roundsCost n' operand :=
  Nat.add_le_add_right (Nat.mul_le_mul_right (operand + 1) h) 1

theorem roundsCost_pos (n operand : Nat) : 0 < roundsCost n operand :=
  Nat.succ_pos _

/-- The cost of a phrase for unary calls of the given cost. The first operand of a chain counts as a
round, and so does the one with which the tree gets too high. -/
def chainsCost (limit unary : Nat) (r : Phrase) : Nat :=
  r.levels.foldr (fun _ => roundsCost (limit + 2)) unary

/-- A bound on the steps of a unary call with room for `room` nested ones. -/
def unaryCost (limit : Nat) : (room : Nat) → Nat
  | 0 => 2
  | room + 1 => chainsCost limit (unaryCost limit room) (.level .equality) + 6

def phraseCost (limit room : Nat) : Phrase → Nat
  | .primary => chainsCost limit (unaryCost limit room) (.level .equality) + 3
  | r => chainsCost limit (unaryCost limit room) r

theorem phraseCost_level (limit room : Nat) (l : Level) :
    phraseCost limit room (.level l) = roundsCost (limit + 2) (phraseCost limit room l.operand) := by
  cases l <;> rfl

theorem phraseCost_primary (limit room : Nat) :
    phraseCost limit room .primary = phraseCost limit room (.level .equality) + 3 :=
  rfl

theorem phraseCost_unary_succ (limit room : Nat) :
    phraseCost limit (room + 1) .unary = phraseCost limit room .primary + 3 :=
  rfl

theorem two_le_phraseCost_unary (limit room : Nat) : 2 ≤ phraseCost limit room .unary := by
  cases room with
  | zero => exact Nat.le_refl 2
  | succ room =>
    rw [phraseCost_unary_succ]
    omega

theorem phraseCost_operand_lt (limit room : Nat) (l : Level) :
    phraseCost limit room l.operand < phraseCost limit room (.level l) := by
  rw [phraseCost_level, roundsCost_succ]
  omega

theorem phraseCost_unary_lt (limit room : Nat) :
    phraseCost limit room .unary < phraseCost limit room .primary := by
  have hfactor := phraseCost_operand_lt limit room .factor
  have hterm := phraseCost_operand_lt limit room .term
  have hcomparison := phraseCost_operand_lt limit room .comparison
  have hequality := phraseCost_operand_lt limit room .equality
  simp only [Level.operand] at hfactor hterm hcomparison hequality
  rw [phraseCost_primary]
  omega

/-- What a waiting call at this depth can still do. -/
def Frame.weight (limit depth : Nat) : Frame → Nat
  | .first l => roundsCost (limit + 1) (phraseCost limit (limit - depth) l.operand)
  | .right l _ height _ => roundsCost (limit - height) (phraseCost limit (limit - depth) l.operand)
  | .unary _ => 1
  | .group => 2

def Control.weight (limit depth : Nat) : Control ε → Nat
  | .call r => phraseCost limit (limit - depth) r
  -- the call is counted in the depth, which was the first of its steps
  | .unary => phraseCost limit (limit + 1 - depth) .unary - 1
  | .loop l _ height =>
    roundsCost (limit - height + 1) (phraseCost limit (limit - depth) l.operand)
  | .close _ => 2
  | .done _ => 1
  | .accepted _ | .failed _ => 0

/-- What the waiting calls can still do. The last of them waits at this depth. -/
def stackWeight (limit : Nat) : (depth : Nat) → List Frame → Nat
  | _, [] => 0
  | depth, frame :: stack =>
    frame.weight limit depth + stackWeight limit (depth - frame.isUnary.toNat) stack

/-- A bound on the steps that a core can still make. -/
def Core.weight (limit : Nat) (core : Core ε) : Nat :=
  core.control.weight limit core.depth +
    stackWeight limit (core.depth - core.control.isUnary.toNat) core.stack

theorem Frame.weight_pos (limit depth : Nat) (frame : Frame) : 0 < frame.weight limit depth := by
  cases frame with
  | first | right => exact roundsCost_pos _ _
  | unary | group => exact Nat.succ_pos _

section Weight

variable {depth height : Nat} {stack : List Frame}

@[simp] theorem Core.weight_call (r : Phrase) :
    (⟨depth, height, .call r, stack⟩ : Core ε).weight limit =
      phraseCost limit (limit - depth) r + stackWeight limit depth stack :=
  rfl

@[simp] theorem Core.weight_unary :
    (⟨depth, height, .unary, stack⟩ : Core ε).weight limit =
      phraseCost limit (limit + 1 - depth) .unary - 1 + stackWeight limit (depth - 1) stack :=
  rfl

@[simp] theorem Core.weight_loop (l : Level) (left : Expr) (h : Nat) :
    (⟨depth, height, .loop l left h, stack⟩ : Core ε).weight limit =
      roundsCost (limit - h + 1) (phraseCost limit (limit - depth) l.operand) +
        stackWeight limit depth stack :=
  rfl

@[simp] theorem Core.weight_close (e : Expr) :
    (⟨depth, height, .close e, stack⟩ : Core ε).weight limit = 2 + stackWeight limit depth stack :=
  rfl

@[simp] theorem Core.weight_done (e : Expr) :
    (⟨depth, height, .done e, stack⟩ : Core ε).weight limit = 1 + stackWeight limit depth stack :=
  rfl

@[simp] theorem Core.weight_accepted (e : Expr) :
    (⟨depth, height, .accepted e, stack⟩ : Core ε).weight limit = stackWeight limit depth stack :=
  Nat.zero_add _

@[simp] theorem Core.weight_failed (fault : Fault ε) :
    (⟨depth, height, .failed fault, stack⟩ : Core ε).weight limit =
      stackWeight limit depth stack :=
  Nat.zero_add _

@[simp] theorem stackWeight_first (l : Level) :
    stackWeight limit depth (.first l :: stack) =
      roundsCost (limit + 1) (phraseCost limit (limit - depth) l.operand) +
        stackWeight limit depth stack :=
  rfl

@[simp] theorem stackWeight_right (l : Level) (left : Expr) (h : Nat) (op : Token) :
    stackWeight limit depth (.right l left h op :: stack) =
      roundsCost (limit - h) (phraseCost limit (limit - depth) l.operand) +
        stackWeight limit depth stack :=
  rfl

@[simp] theorem stackWeight_unary (op : Option Token) :
    stackWeight limit depth (.unary op :: stack) = 1 + stackWeight limit (depth - 1) stack :=
  rfl

@[simp] theorem stackWeight_group :
    stackWeight limit depth (.group :: stack) = 2 + stackWeight limit depth stack :=
  rfl

end Weight

namespace Core

variable {core next : Core ε} {depth height : Nat} {frame : Frame} {stack : List Frame}

theorem weight_resume_lt {e : Expr} :
    (Core.resume limit ⟨depth, height, .done e, stack⟩ e frame : Core ε).weight limit <
      (⟨depth, height, .done e, frame :: stack⟩ : Core ε).weight limit := by
  cases frame with
  | first l =>
    -- the first tree leaves at most all rounds
    have hrounds := roundsCost_mono (Nat.add_le_add_right (Nat.sub_le limit height) 1)
      (phraseCost limit (limit - depth) l.operand)
    simp only [Core.resume, weight_loop, weight_done, stackWeight_first]
    omega
  | right l left h op =>
    rw [Core.resume]
    split
    · next hlimit =>
      have hleft : limit - (max h height + 1) + 1 ≤ limit - h := by
        change max h height + 1 ≤ limit at hlimit
        omega
      have hrounds := roundsCost_mono hleft (phraseCost limit (limit - depth) l.operand)
      simp only [weight_loop, weight_done, stackWeight_right]
      omega
    · simp only [weight_failed, weight_done, stackWeight_right]
      omega
  | unary op =>
    cases op with
    | none =>
      simp only [Core.resume, weight_done, stackWeight_unary]
      omega
    | some op =>
      rw [Core.resume]
      split
      · simp only [weight_done, stackWeight_unary]
        omega
      · simp only [weight_failed, weight_done, stackWeight_unary]
        omega
  | group =>
    simp only [Core.resume, weight_close, weight_done, stackWeight_group]
    omega

theorem weight_unwind_lt {fault : Fault ε} :
    (Core.unwind ⟨depth, height, .failed fault, stack⟩ frame).weight limit <
      (⟨depth, height, .failed fault, frame :: stack⟩ : Core ε).weight limit := by
  have hpos := frame.weight_pos limit depth
  have hunwind : Core.unwind ⟨depth, height, .failed fault, stack⟩ frame =
      ⟨depth - frame.isUnary.toNat, height, .failed fault, stack⟩ := by
    cases frame <;> rfl
  rw [hunwind, weight_failed, weight_failed, stackWeight]
  omega

theorem GoesOn.weight_lt (h : core.GoesOn limit next) : next.weight limit < core.weight limit := by
  cases h with
  | @level depth height l stack =>
    simp only [weight_call, stackWeight_first, phraseCost_level, roundsCost_succ (limit + 1)]
    omega
  | @unary depth height stack =>
    have hcost := two_le_phraseCost_unary limit (limit - depth)
    rw [weight_call, weight_unary, Nat.add_sub_add_right, Nat.add_sub_cancel]
    omega
  | resume => exact weight_resume_lt
  | unwind => exact weight_unwind_lt

theorem Looks.weight_fail_lt {look : Token → Bool × Core ε} (h : core.Looks limit look)
    (fault : Fault ε) : (core.fail fault).weight limit < core.weight limit := by
  cases h with
  | @primary depth height stack =>
    simp only [Core.fail, weight_failed, weight_call, phraseCost_primary]
    omega
  | @unary depth height stack =>
    have hcost := two_le_phraseCost_unary limit (limit + 1 - depth)
    simp only [Core.fail, weight_failed, weight_unary]
    omega
  | loop =>
    simp only [Core.fail, weight_failed, weight_loop, roundsCost_succ]
    omega
  | close =>
    simp only [Core.fail, weight_failed, weight_close]
    omega
  | finish =>
    simp only [Core.fail, weight_failed, weight_done]
    omega

theorem weight_unaryLook_lt (t : Token) :
    (Core.unaryLook limit ⟨depth, height, .unary, stack⟩ t : Bool × Core ε).2.weight limit <
      (⟨depth, height, .unary, stack⟩ : Core ε).weight limit := by
  rw [Core.unaryLook]
  split
  · exact Looks.unary.weight_fail_lt _
  · next hdepth =>
    have hroom : limit + 1 - depth = limit - depth + 1 := by
      change ¬ limit < depth at hdepth
      omega
    have hunary := phraseCost_unary_lt limit (limit - depth)
    rw [weight_unary, hroom, phraseCost_unary_succ]
    split
    · simp only [weight_call, stackWeight_unary]
      omega
    · simp only [weight_call, stackWeight_unary]
      omega

theorem Looks.weight_lt {look : Token → Bool × Core ε} (h : core.Looks limit look) (t : Token) :
    (look t).2.weight limit < core.weight limit := by
  have hfail (fault : Fault ε) := h.weight_fail_lt fault
  cases h with
  | primary =>
    rw [Core.primaryLook]
    split
    · simp only [weight_call, stackWeight_group, phraseCost_primary]
      omega
    · split
      · simp only [weight_done, weight_call, phraseCost_primary]
        omega
      · exact hfail _
  | unary => exact weight_unaryLook_lt t
  | @loop depth height h l left stack =>
    -- a round is paid for by the room that the left operand leaves below the limit
    have hpos := roundsCost_pos (limit - h) (phraseCost limit (limit - depth) l.operand)
    rw [Core.loopLook]
    split
    · simp only [weight_call, weight_loop, stackWeight_right, roundsCost_succ]
      omega
    · simp only [weight_done, weight_loop, roundsCost_succ]
      omega
  | close =>
    rw [Core.closeLook]
    split
    · simp only [weight_done, weight_close]
      omega
    · exact hfail _
  | finish =>
    rw [Core.endLook]
    split
    · simp only [weight_accepted, weight_done]
      omega
    · exact hfail _

end Core

/-- Every step makes the weight smaller, and takes at most one token. -/
theorem weight_step {m m' : Machine σ ε} {ts : List Token}
    (hstep : m.step src limit = some (ts, m')) :
    ts.length ≤ 1 ∧ m'.core.weight limit < m.core.weight limit := by
  obtain ⟨core, c⟩ := m
  obtain ⟨next, hmove, rfl, rfl⟩ | ⟨look, t, hmove, -, rfl, rfl⟩ |
    ⟨look, t, rest, hmove, -, -, rfl, rfl⟩ | ⟨look, e, rest, hmove, -, -, rfl, rfl⟩ :=
    step_cases hstep
  · exact ⟨Nat.zero_le 1, (Core.goesOn_of_move hmove).weight_lt⟩
  · exact ⟨Nat.zero_le 1, (Core.looks_of_move hmove).weight_lt t⟩
  · exact ⟨Nat.le_refl 1, (Core.looks_of_move hmove).weight_lt t⟩
  · exact ⟨Nat.zero_le 1, (Core.looks_of_move hmove).weight_fail_lt _⟩

/-- A run takes no more tokens than the weight it uses up. -/
theorem Run.length_le {m m' : Machine σ ε} {ts : List Token} (h : Run src limit m ts m') :
    ts.length + m'.core.weight limit ≤ m.core.weight limit := by
  induction h with
  | refl => exact Nat.le_of_eq (Nat.zero_add _)
  | step hstep _ ih =>
    obtain ⟨hone, hlt⟩ := weight_step hstep
    rw [List.length_append]
    omega

/-- After as many steps as it weighs, a machine has come to its end. -/
theorem step_after_weight {m : Machine σ ε} {n : Nat} (h : m.core.weight limit ≤ n) :
    (m.after src limit n).step src limit = none := by
  induction n generalizing m with
  | zero =>
    rw [Machine.after]
    cases hstep : m.step src limit with
    | none => rfl
    | some result =>
      obtain ⟨-, hlt⟩ := weight_step hstep
      omega
  | succ n ih =>
    rw [Machine.after]
    cases hstep : m.step src limit with
    | none => exact hstep
    | some result =>
      obtain ⟨-, hlt⟩ := weight_step hstep
      exact ih (by omega)

end ExprCalc.Parser
