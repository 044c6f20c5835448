import ExprCalc.Proofs.Parser.Machine

namespace ExprCalc.Parser

open Grammar

variable {σ ε : Type} {src : TokenSource σ ε} {limit : Nat}

def Frame.isUnary : Frame → Bool
  | .unary _ => true
  | _ => false

def Control.isUnary : Control ε → Bool
  | .unary => true
  | _ => false

/-- The number of unary calls in progress: those that wait, and the running one. -/
def Core.active (core : Core ε) : Nat :=
  core.stack.countP Frame.isUnary + core.control.isUnary.toNat

/-- The height noted beside a tree is its height, and within the limit. -/
def Sized (limit : Nat) (e : Expr) (height : Nat) : Prop :=
  e.height = height ∧ height ≤ limit

def Frame.Sound (limit : Nat) : Frame → Prop
  | .right _ left height _ => Sized limit left height
  | _ => True

/-- A tree that is about to be returned has the height in the register. -/
def Control.Sound (limit height : Nat) : Control ε → Prop
  | .loop _ left h => Sized limit left h
  | .close e | .done e | .accepted e => Sized limit e height
  | .call _ | .unary | .failed _ => True

structure StackSound (limit : Nat) (stack : List Frame) : Prop where
  count_le : stack.countP Frame.isUnary ≤ limit
  frames : ∀ frame ∈ stack, frame.Sound limit

structure Core.Sound (limit : Nat) (core : Core ε) : Prop where
  depth_eq : core.depth = core.active
  stack : StackSound limit core.stack
  control : core.control.Sound limit core.height

namespace StackSound

variable {frame : Frame} {stack : List Frame}

theorem nil : StackSound limit [] :=
  ⟨Nat.zero_le limit, fun _ h => absurd h List.not_mem_nil⟩

theorem push (h : StackSound limit stack) (hframe : frame.Sound limit)
    (hcount : stack.countP Frame.isUnary + frame.isUnary.toNat ≤ limit) :
    StackSound limit (frame :: stack) := by
  constructor
  · rw [List.countP_cons]
    cases hunary : frame.isUnary <;> simpa [hunary] using hcount
  · rintro frame' (_ | ⟨_, hmem⟩)
    · exact hframe
    · exact h.frames frame' hmem

theorem pop (h : StackSound limit (frame :: stack)) : StackSound limit stack := by
  constructor
  · have hcount := h.count_le
    rw [List.countP_cons] at hcount
    omega
  · exact fun frame' hmem => h.frames frame' (.tail frame hmem)

end StackSound

namespace Core.Sound

variable {core next : Core ε}

theorem active_le (h : core.Sound limit) : core.active ≤ limit + 1 := by
  have hwaiting := h.stack.count_le
  have hrunning := core.control.isUnary.toNat_le
  unfold Core.active
  omega

theorem fail (h : core.Sound limit) (fault : Fault ε) : (core.fail fault).Sound limit := by
  obtain ⟨depth, height, control, stack⟩ := core
  obtain ⟨hdepth, hstack, -⟩ := h
  cases control with
  | unary => exact ⟨congrArg (· - 1) hdepth, hstack, trivial⟩
  | _ => exact ⟨hdepth, hstack, trivial⟩

theorem depth_pop {depth height : Nat} {control : Control ε} {frame : Frame} {stack : List Frame}
    (h : (⟨depth, height, control, frame :: stack⟩ : Core ε).Sound limit)
    (hcontrol : control.isUnary = false) :
    depth - frame.isUnary.toNat = stack.countP Frame.isUnary := by
  have hdepth := h.depth_eq
  simp only [Core.active, List.countP_cons, hcontrol, Bool.toNat_false] at hdepth
  cases hframe : frame.isUnary <;> simp [hdepth, hframe]

theorem resume {depth height : Nat} {e : Expr} {frame : Frame} {stack : List Frame}
    (h : (⟨depth, height, .done e, frame :: stack⟩ : Core ε).Sound limit) :
    (Core.resume limit ⟨depth, height, .done e, stack⟩ e frame : Core ε).Sound limit := by
  have hdepth := h.depth_pop rfl
  obtain ⟨-, hstack, hheight, hlimit⟩ := h
  cases frame with
  | first l => exact ⟨hdepth, hstack.pop, hheight, hlimit⟩
  | group => exact ⟨hdepth, hstack.pop, hheight, hlimit⟩
  | right l left height' op =>
    obtain ⟨hleft, -⟩ := hstack.frames _ List.mem_cons_self
    rw [Core.resume]
    split
    · next hmax =>
      refine ⟨hdepth, hstack.pop, ?_, hmax⟩
      rw [Expr.height, hleft, hheight]
    · exact ⟨hdepth, hstack.pop, trivial⟩
  | unary op =>
    cases op with
    | none => exact ⟨hdepth, hstack.pop, hheight, hlimit⟩
    | some op =>
      rw [Core.resume]
      split
      · next hmax => exact ⟨hdepth, hstack.pop, congrArg (· + 1) hheight, hmax⟩
      · exact ⟨hdepth, hstack.pop, trivial⟩

theorem unwind {depth height : Nat} {fault : Fault ε} {frame : Frame} {stack : List Frame}
    (h : (⟨depth, height, .failed fault, frame :: stack⟩ : Core ε).Sound limit) :
    (Core.unwind ⟨depth, height, .failed fault, stack⟩ frame).Sound limit := by
  have hdepth := h.depth_pop rfl
  cases frame <;> exact ⟨hdepth, h.stack.pop, trivial⟩

theorem silent (h : core.Sound limit) (hmove : core.move limit = .silent next) :
    next.Sound limit := by
  cases goesOn_of_move hmove with
  | level => exact ⟨h.depth_eq, h.stack.push trivial h.stack.count_le, trivial⟩
  | unary => exact ⟨congrArg (· + 1) h.depth_eq, h.stack, trivial⟩
  | resume => exact h.resume
  | unwind => exact h.unwind

theorem unaryLook {depth height : Nat} {stack : List Frame}
    (h : (⟨depth, height, .unary, stack⟩ : Core ε).Sound limit) (t : Token) :
    (Core.unaryLook limit ⟨depth, height, .unary, stack⟩ t : Bool × Core ε).2.Sound limit := by
  have hdepth : depth = stack.countP Frame.isUnary + 1 := h.depth_eq
  rw [Core.unaryLook]
  split
  · exact h.fail _
  · next hroom =>
    -- the call begins to wait, and there is room for it
    have hcount : stack.countP Frame.isUnary + 1 ≤ limit := by
      rw [← hdepth]
      exact Nat.le_of_not_lt hroom
    have hactive (op : Option Token) :
        depth = (Frame.unary op :: stack).countP Frame.isUnary := by
      rw [hdepth, List.countP_cons]
      rfl
    split
    · exact ⟨hactive (some t), h.stack.push trivial hcount, trivial⟩
    · exact ⟨hactive none, h.stack.push trivial hcount, trivial⟩

theorem look (hlimit : 0 < limit) (h : core.Sound limit) {look : Token → Bool × Core ε}
    (hmove : core.move limit = .look look) (t : Token) : (look t).2.Sound limit := by
  cases looks_of_move hmove with
  | primary =>
    rw [Core.primaryLook]
    split
    · exact ⟨h.depth_eq, h.stack.push trivial h.stack.count_le, trivial⟩
    · split
      · exact ⟨h.depth_eq, h.stack, rfl, hlimit⟩
      · exact h.fail _
  | unary => exact h.unaryLook t
  | loop =>
    rw [Core.loopLook]
    split
    · exact ⟨h.depth_eq, h.stack.push h.control h.stack.count_le, trivial⟩
    · exact ⟨h.depth_eq, h.stack, h.control⟩
  | close =>
    rw [Core.closeLook]
    split
    · exact ⟨h.depth_eq, h.stack, h.control⟩
    · exact h.fail _
  | finish =>
    rw [Core.endLook]
    split
    · exact ⟨h.depth_eq, h.stack, h.control⟩
    · exact h.fail _

end Core.Sound

/-- Every step keeps the counts right. -/
theorem sound_step (hlimit : 0 < limit) {m m' : Machine σ ε} {ts : List Token}
    (h : m.core.Sound limit) (hstep : m.step src limit = some (ts, m')) : m'.core.Sound limit := by
  obtain ⟨next, hmove, -, rfl⟩ | ⟨look, t, hmove, -, -, rfl⟩ |
    ⟨look, t, rest, hmove, -, -, -, rfl⟩ | ⟨look, e, rest, hmove, -, -, -, rfl⟩ :=
    step_cases hstep
  · exact h.silent hmove
  · exact h.look hlimit hmove t
  · exact h.look hlimit hmove t
  · exact h.fail _

theorem sound_call {p : Memory σ} (hp : p.depth = 0) :
    (p.call : Machine σ ε).core.Sound limit :=
  ⟨hp, .nil, trivial⟩

theorem Reaches.sound (hlimit : 0 < limit) {p : Memory σ} {m : Machine σ ε} (hp : p.depth = 0)
    (h : Reaches src limit p.call m) : m.core.Sound limit :=
  h.invariant (sound_call hp) fun _ _ _ => sound_step hlimit

theorem Call.depth_eq_zero (hlimit : 0 < limit) {p p' : Memory σ} {result : Except (Fault ε) Expr}
    (h : Call src limit p result p') (hp : p.depth = 0) : p'.depth = 0 := by
  have hsound := Reaches.sound hlimit hp h
  cases result <;> exact hsound.depth_eq

theorem Call.height_eq (hlimit : 0 < limit) {p p' : Memory σ} {e : Expr}
    (h : Call (ε := ε) src limit p (.ok e) p') (hp : p.depth = 0) : Sized limit e p'.height :=
  (Reaches.sound hlimit hp h).control

/-- The source that delivers a token, if there is one, before it goes on with `src`. -/
def behindToken (src : TokenSource σ ε) : TokenSource (Option Token × σ) ε where
  next
    | (some t, s) => (.ok t, none, s)
    | (none, s) => ((src.next s).1, none, (src.next s).2)

/-- The running call has not looked at a token yet. -/
def Control.isFresh : Control ε → Bool
  | .call _ | .unary => true
  | _ => false

/-- The machine on the right runs on the source with the held token put back. As long as it has not
looked at a token, the put back token may still be there. -/
inductive PutBack : Machine σ ε → Machine (Option Token × σ) ε → Prop
  | untouched {core : Core ε} {held : Option Token} {rest : σ}
      (hfresh : core.control.isFresh = true) :
      PutBack ⟨core, ⟨held, rest⟩⟩ ⟨core, ⟨none, held, rest⟩⟩
  | taken {core : Core ε} {held : Option Token} {rest : σ} :
      PutBack ⟨core, ⟨held, rest⟩⟩ ⟨core, ⟨held, none, rest⟩⟩

theorem isFresh_of_silent {core next : Core ε} (hmove : core.move limit = .silent next)
    (hfresh : core.control.isFresh = true) : next.control.isFresh = true := by
  cases Core.goesOn_of_move hmove with
  | level | unary => rfl
  | resume | unwind => cases hfresh

theorem PutBack.step {m n : Machine σ ε} {m' : Machine (Option Token × σ) ε} {ts : List Token}
    (h : PutBack m m') (hstep : m.step src limit = some (ts, n)) :
    ∃ us n', m'.step (behindToken src) limit = some (us, n') ∧ PutBack n n' := by
  have hnext {s s' : σ} {item : Except ε Token} (hs : src.next s = (item, s')) :
      (behindToken src).next (none, s) = (item, none, s') := by
    simp only [behindToken, hs]
  obtain ⟨next, hmove, -, rfl⟩ | ⟨look, t, hmove, hheld, -, rfl⟩ |
    ⟨look, t, rest', hmove, hheld, hs, -, rfl⟩ | ⟨look, e, rest', hmove, hheld, hs, -, rfl⟩ :=
    step_cases hstep
  all_goals cases h
  · next hfresh => exact ⟨[], _, step_silent hmove, .untouched (isFresh_of_silent hmove hfresh)⟩
  · exact ⟨[], _, step_silent hmove, .taken⟩
  · cases hheld
    exact ⟨[t], _, step_pull hmove rfl, .taken⟩
  · cases hheld
    exact ⟨[], _, step_held hmove, .taken⟩
  · cases hheld
    exact ⟨[t], _, step_pull hmove (hnext hs), .taken⟩
  · cases hheld
    exact ⟨[t], _, step_pull hmove (hnext hs), .taken⟩
  · cases hheld
    exact ⟨[], _, step_failure hmove (hnext hs), .taken⟩
  · cases hheld
    exact ⟨[], _, step_failure hmove (hnext hs), .taken⟩

theorem PutBack.reaches {m n : Machine σ ε} {m' : Machine (Option Token × σ) ε}
    (h : PutBack m m') (hrun : Reaches src limit m n) :
    ∃ n', Reaches (behindToken src) limit m' n' ∧ PutBack n n' := by
  obtain ⟨ts, hrun⟩ := hrun
  induction hrun generalizing m' with
  | refl => exact ⟨m', .refl, h⟩
  | step hstep _ ih =>
    obtain ⟨us, n', hstep', hn⟩ := h.step hstep
    obtain ⟨n'', hrun', hn'⟩ := ih hn
    exact ⟨n'', .head hstep' hrun', hn'⟩

/-- A call goes the same way if the token that is held is put back before. -/
theorem Call.putBack {p p' : Memory σ} {result : Except (Fault ε) Expr}
    (h : Call src limit p result p') :
    Call (behindToken src) limit ⟨.start (p.cursor.held, p.cursor.rest), p.depth, p.height⟩ result
      ⟨⟨p'.cursor.held, none, p'.cursor.rest⟩, p'.depth, p'.height⟩ := by
  obtain ⟨n, hrun, hn⟩ := PutBack.reaches (.untouched rfl) h
  obtain ⟨⟨held, rest⟩, depth, height⟩ := p'
  -- a call that has come to its end has looked at a token
  cases result <;> cases hn
  case ok.untouched hfresh => cases hfresh
  case error.untouched hfresh => cases hfresh
  all_goals exact hrun

/-- `Session src limit p results p'`: one call after the other, the parser `p` gives the `results`
and is then `p'`. -/
inductive Session (src : TokenSource σ ε) (limit : Nat) :
    Memory σ → List (Except (Fault ε) Expr) → Memory σ → Prop
  | nil {p : Memory σ} : Session src limit p [] p
  | cons {p p' p'' : Memory σ} {result : Except (Fault ε) Expr}
      {results : List (Except (Fault ε) Expr)} (hcall : Call src limit p result p')
      (h : Session src limit p' results p'') : Session src limit p (result :: results) p''

theorem Session.depth_eq_zero (hlimit : 0 < limit) {p p' : Memory σ}
    {results : List (Except (Fault ε) Expr)} (h : Session src limit p results p')
    (hp : p.depth = 0) : p'.depth = 0 := by
  induction h with
  | nil => exact hp
  | cons hcall _ ih => exact ih (hcall.depth_eq_zero hlimit hp)

theorem exists_session (src : TokenSource σ ε) (hlimit : 0 < limit) (n : Nat) {p : Memory σ}
    (hp : p.depth = 0) : ∃ results p', results.length = n ∧ Session src limit p results p' := by
  induction n generalizing p with
  | zero => exact ⟨[], p, rfl, .nil⟩
  | succ n ih =>
    obtain ⟨result, p₁, hcall⟩ := exists_call src limit hp
    obtain ⟨results, p₂, hlength, hsession⟩ := ih (hcall.depth_eq_zero hlimit hp)
    exact ⟨result :: results, p₂, congrArg (· + 1) hlength, .cons hcall hsession⟩

/-- The registers in the middle of a call: the depth is the number of unary calls in progress, and a
tree that is done has the height in the register. -/
structure Counted (core : Core ε) : Prop where
  active : core.active = core.depth
  depth_le : core.depth ≤ maxDepth + 1
  height : ∀ e, core.control = .done e → e.height = core.height ∧ e.height ≤ maxDepth

/-- After a call the depth is zero and the height is that of the tree. The answer and what is left
are those of `parse`, and those of a new parser on the source with the held token put back. -/
structure Answered (src : TokenSource σ ε) (p : Memory σ) (result : Except (Fault ε) Expr)
    (p' : Memory σ) : Prop where
  depth : p'.depth = 0
  height : ∀ e, result = .ok e → e.height = p'.height ∧ e.height ≤ maxDepth
  parse_eq : parse src p.cursor = (result.mapError Fault.toStop, p'.cursor)
  parse_fresh : parse (behindToken src) (.start (p.cursor.held, p.cursor.rest)) =
    (result.mapError Fault.toStop, ⟨p'.cursor.held, none, p'.cursor.rest⟩)

/-- The counters of a parser are sound through any number of calls, whatever these give. -/
theorem session_bookkeeping (src : TokenSource σ ε) (s : σ) :
    (∀ n, ∃ results p, results.length = n ∧ Session src maxDepth (.start s) results p) ∧
    ∀ results p, Session src maxDepth (.start s) results p →
      p.depth = 0 ∧ (∀ m, Reaches src maxDepth p.call m → Counted m.core) ∧
      (∃ result p', Call src maxDepth p result p') ∧
      ∀ result p', Call src maxDepth p result p' → Answered src p result p' := by
  have hlimit : 0 < maxDepth := by decide
  refine ⟨fun n => exists_session src hlimit n rfl, ?_⟩
  intro results p hsession
  have hp := hsession.depth_eq_zero hlimit rfl
  refine ⟨hp, ?_, exists_call src maxDepth hp, ?_⟩
  · intro m hreaches
    have hsound := Reaches.sound hlimit hp hreaches
    refine ⟨hsound.depth_eq.symm, hsound.depth_eq ▸ hsound.active_le, ?_⟩
    intro e hdone
    have hsized := hsound.control
    rw [hdone] at hsized
    obtain ⟨hheight, hle⟩ := hsized
    exact ⟨hheight, hheight ▸ hle⟩
  · intro result p' hcall
    refine ⟨hcall.depth_eq_zero hlimit hp, ?_, hcall.parse_eq hp, hcall.putBack.parse_eq hp⟩
    rintro e rfl
    obtain ⟨hheight, hle⟩ := hcall.height_eq hlimit hp
    exact ⟨hheight, hheight ▸ hle⟩

end ExprCalc.Parser
