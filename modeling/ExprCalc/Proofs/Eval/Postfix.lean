import ExprCalc.Proofs.Eval.Kinds

namespace ExprCalc.Expr

def visited (e : Expr) : List Expr :=
  let visit (child : Expr) : StateM (List Expr) Expr := do
    modify (· ++ [child])
    return child
  ((e.mapChildrenM visit).run []).2

theorem visited_eq_children (e : Expr) : e.visited = e.children := by
  cases e <;> rfl

theorem postfixOnto_eq (e : Expr) (rest : List Expr) : e.postfixOnto rest = e.nodes ++ rest := by
  induction e generalizing rest with
  | missing | literal => rfl
  | unary op operand ih =>
    rw [nodes, postfixOnto, postfixOnto, ih, ih [unary op operand], List.append_assoc]
    rfl
  | binary left op right ihl ihr =>
    rw [nodes, postfixOnto, postfixOnto, ihl, ihr, ihl (postfixOnto _ _),
      ihr [binary left op right], List.append_assoc, List.append_assoc]
    rfl

/-- A node comes after the nodes below each of its children. -/
theorem nodes_eq (e : Expr) : e.nodes = e.children.flatMap nodes ++ [e] := by
  cases e with
  | missing | literal => rfl
  | unary op operand =>
    rw [nodes, postfixOnto, postfixOnto_eq]
    simp [children]
  | binary left op right =>
    rw [nodes, postfixOnto, postfixOnto_eq, postfixOnto_eq]
    simp [children]

inductive Halt where
  /-- A node finds too few values on the stack. -/
  | underflow
  | error (e : EvalError)

/-- The stack with the result of an operator on top. -/
def push (stack : List Value) : Except EvalError Value → Except Halt (List Value)
  | .ok v => .ok (v :: stack)
  | .error e => .error (.error e)

/-- A node as an instruction. The right operand of an operator lies above the left one. -/
def exec : Expr → List Value → Except Halt (List Value)
  | missing, _ => .error (.error .missingNode)
  | literal _ v, stack => .ok (v :: stack)
  | unary op _, x :: stack => push stack (applyUnary op x)
  | binary _ op _, y :: x :: stack => push stack (applyBinary op x y)
  | _, _ => .error .underflow

def execAll (program : List Expr) (stack : List Value) : Except Halt (List Value) :=
  program.foldlM (fun stack x => x.exec stack) stack

theorem execAll_append (xs ys : List Expr) (stack : List Value) :
    execAll (xs ++ ys) stack = execAll xs stack >>= execAll ys :=
  List.foldlM_append

theorem execAll_cons (x : Expr) (xs : List Expr) (stack : List Value) :
    execAll (x :: xs) stack = x.exec stack >>= execAll xs :=
  List.foldlM_cons

theorem execAll_singleton (x : Expr) (stack : List Value) : execAll [x] stack = x.exec stack := by
  rw [execAll_cons]
  exact bind_pure _

/-- The nodes of a tree leave its value on whatever stack they find. -/
theorem execAll_nodes (e : Expr) (stack : List Value) :
    execAll e.nodes stack = push stack e.eval := by
  induction e generalizing stack with
  | missing | literal => rfl
  | unary op operand ih =>
    have hnodes : (unary op operand).nodes = operand.nodes ++ [unary op operand] := by
      simp [nodes_eq (unary op operand), children]
    rw [hnodes, execAll_append, ih, eval]
    cases operand.eval with
    | error err => rfl
    | ok x => exact execAll_singleton (unary op operand) (x :: stack)
  | binary left op right ihl ihr =>
    have hnodes : (binary left op right).nodes =
        left.nodes ++ (right.nodes ++ [binary left op right]) := by
      simp [nodes_eq (binary left op right), children]
    rw [hnodes, execAll_append, ihl, eval]
    cases left.eval with
    | error err => rfl
    | ok x =>
      change execAll (right.nodes ++ [binary left op right]) (x :: stack) = _
      rw [execAll_append, ihr]
      cases right.eval with
      | error err => rfl
      | ok y => exact execAll_singleton (binary left op right) (y :: x :: stack)

theorem execAll_eq_error {program : List Expr} {stack : List Value} {halt : Halt}
    (h : execAll program stack = .error halt) :
    ∃ before x after stack', program = before ++ x :: after ∧
      execAll before stack = .ok stack' ∧ x.exec stack' = .error halt := by
  induction program generalizing stack with
  | nil => cases h
  | cons x xs ih =>
    rw [execAll_cons] at h
    cases hx : x.exec stack with
    | error halt' =>
      rw [hx] at h
      cases h
      exact ⟨[], x, xs, stack, rfl, rfl, hx⟩
    | ok next =>
      rw [hx] at h
      obtain ⟨before, y, after, stack', rfl, hbefore, hy⟩ := ih h
      refine ⟨x :: before, y, after, stack', rfl, ?_, hy⟩
      rw [execAll_cons, hx]
      exact hbefore

theorem applyUnary_eq_error {op : Token} {x : Value} {err : EvalError}
    (h : applyUnary op x = .error err) : err = .type ⟨op, [x.kind]⟩ := by
  have hkind := map_kind_applyUnary op x
  rw [h] at hkind
  cases hfound : unaryKind? op.kind x.kind <;> rw [hfound] at hkind <;> cases hkind
  rfl

theorem applyBinary_eq_error {op : Token} {x y : Value} {err : EvalError}
    (h : applyBinary op x y = .error err) : err = .type ⟨op, [x.kind, y.kind]⟩ := by
  have hkind := map_kind_applyBinary op x y
  rw [h] at hkind
  cases hfound : binaryKind? op.kind x.kind y.kind <;> rw [hfound] at hkind <;> cases hkind
  rfl

theorem push_eq_error {stack : List Value} {result : Except EvalError Value} {err : EvalError}
    (h : push stack result = .error (.error err)) : result = .error err := by
  cases result with
  | ok v => cases h
  | error err' =>
    cases h
    rfl

/-- An error about operands comes from the node of the operator it names. -/
theorem token?_of_exec_eq_error {x : Expr} {stack : List Value} {e : TypeError}
    (h : x.exec stack = .error (.error (.type e))) : x.token? = some e.op := by
  unfold exec at h
  split at h
  · cases h
  · cases h
  · cases applyUnary_eq_error (push_eq_error h)
    rfl
  · cases applyBinary_eq_error (push_eq_error h)
    rfl
  · cases h

/-- As a program, the nodes of a tree end with its value alone on the stack, or stop with the error
of its evaluation. No part of the program finds too few values, and it stops at the first node that
fails, which is the one that the error names. -/
theorem nodes_compute_eval (e : Expr) (he : e.isComplete) :
    e.nodes = e.visited.flatMap nodes ++ [e] ∧
    (∀ v, e.eval = .ok v → execAll e.nodes [] = .ok [v]) ∧
    (∀ err, e.eval = .error err → execAll e.nodes [] = .error (.error err) ∧
      ∃ before x after stack op ks, e.nodes = before ++ x :: after ∧
        execAll before [] = .ok stack ∧ x.exec stack = .error (.error err) ∧
        x.token? = some op ∧ err = .type ⟨op, ks⟩) ∧
    ∀ part, part <+: e.nodes → execAll part [] ≠ .error .underflow := by
  have hrun := execAll_nodes e []
  refine ⟨?_, ?_, ?_, ?_⟩
  · rw [visited_eq_children]
    exact nodes_eq e
  · intro v hv
    rw [hrun, hv]
    rfl
  · intro err herr
    rw [herr] at hrun
    refine ⟨hrun, ?_⟩
    obtain ⟨before, x, after, stack, hnodes, hbefore, hx⟩ := execAll_eq_error hrun
    obtain ⟨k, hk⟩ | ⟨op, ks, hcheck⟩ := check_of_isComplete he
    · rw [(eval_eq_error_iff_check e err).mp herr] at hk
      cases hk
    · cases ((eval_eq_error_iff_check e err).mp herr).symm.trans hcheck
      exact ⟨before, x, after, stack, op, ks, hnodes, hbefore, hx, token?_of_exec_eq_error hx, rfl⟩
  · rintro part ⟨rest, hrest⟩ hunderflow
    -- a part that finds too few values stops the whole program in this way
    rw [← hrest, execAll_append, hunderflow] at hrun
    cases heval : e.eval <;> rw [heval] at hrun <;> cases hrun

theorem nodes_compute_negatedOrder :
    negatedOrder.isComplete ∧
      execAll negatedOrder.nodes [] = .error (.error (.type ⟨minusToken, [.boolean]⟩)) :=
  ⟨rfl, ((nodes_compute_eval negatedOrder rfl).2.2.1 _ rfl).1⟩

end ExprCalc.Expr
