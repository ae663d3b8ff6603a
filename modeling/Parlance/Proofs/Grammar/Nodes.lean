import Parlance.Demand
import Parlance.Proofs.Grammar.File

/-!
# Trees are no larger than their texts

The nodes of a tree are its functions, declarations, returns, conditionals and expressions. A node has a token of its own
among those that spell the tree, so there are no more nodes than tokens (`Spells.nodes_le`, `SpellsEntities.nodes_le`); and
the tokens that spell a file or an expression are among those that the parser has taken for it (`nodes_ofTokens_le`,
`nodes_ofTokens?_le`).
-/

namespace Parlance

/-! ## Nodes -/

namespace Expr

mutual

def nodes : Expr → Nat
  | literal _ | identifier _ => 1
  | call _ as => allNodes as + 1
  | binary _ l r => l.nodes + r.nodes + 1

def allNodes : List Expr → Nat
  | [] => 0
  | a :: as => a.nodes + allNodes as

end

end Expr

namespace Statement

mutual

/-- An expression that stands as a statement is no node beside itself. -/
def nodes : Statement → Nat
  | declaration _ _ _ v | returns v => v.nodes + 1
  | ifThen c b => c.nodes + allNodes b + 1
  | ifElse c b a => c.nodes + allNodes b + allNodes a + 1
  | expression v => v.nodes

def allNodes : List Statement → Nat
  | [] => 0
  | s :: ss => s.nodes + allNodes ss

end

end Statement

def Function.nodes (f : Function) : Nat := Statement.allNodes f.body + 1

def Entity.nodes : Entity → Nat
  | function f => f.nodes
  | statement s => s.nodes

def Entity.allNodes : List Entity → Nat
  | [] => 0
  | e :: es => e.nodes + allNodes es

def File.nodes (f : File) : Nat := Entity.allNodes f.entities

namespace Grammar

/-! ## Tokens that spell a tree -/

mutual

theorem Spells.nodes_le {floor : Nat} {w : List Token} {e : Expr} : Spells floor w e → e.nodes ≤ w.length
  | .literal => Nat.le_refl _
  | .identifier => Nat.le_refl _
  | .call h => by
    have hle := h.nodes_le
    simp only [Expr.nodes, List.length_cons, List.length_append]
    omega
  | .parens h => by
    have hle := h.nodes_le
    simp only [List.length_cons, List.length_append]
    omega
  | .binary _ hl hr => by
    have hle := hl.nodes_le
    have hle' := hr.nodes_le
    simp only [Expr.nodes, List.length_cons, List.length_append]
    omega

theorem SpellsAll.nodes_le {w : List Token} {as : List Expr} : SpellsAll w as → Expr.allNodes as ≤ w.length
  | .one h => h.nodes_le
  | .more h hs => by
    have hle := h.nodes_le
    have hle' := hs.nodes_le
    simp only [Expr.allNodes, List.length_cons, List.length_append]
    omega

end

theorem SpellsSimple.nodes_le {w : List Token} {s : Statement} (h : SpellsSimple w s) : s.nodes ≤ w.length := by
  cases h with
  | declaration hs =>
    have hle := hs.nodes_le
    simp only [Statement.nodes, List.length_cons]
    omega
  | returns hs => exact Nat.succ_le_succ hs.nodes_le
  | expression hs => exact hs.nodes_le

mutual

theorem SpellsConditional.nodes_le {w : List Token} {s : Statement} : SpellsConditional w s → s.nodes ≤ w.length
  | .ifThen hc hb => by
    have hle := hc.nodes_le
    have hle' := hb.nodes_le
    simp only [Statement.nodes, List.length_cons, List.length_append]
    omega
  | .ifElse hc hb ha => by
    have hle := hc.nodes_le
    have hle' := hb.nodes_le
    have hle'' := ha.nodes_le
    simp only [Statement.nodes, List.length_cons, List.length_append]
    omega

theorem SpellsBlock.nodes_le {w : List Token} {b : Block} : SpellsBlock w b → Statement.allNodes b ≤ w.length
  | .braces h => by
    have hle := h.nodes_le
    simp only [List.length_cons, List.length_append]
    omega

theorem SpellsItems.nodes_le {w : List Token} {b : Block} : SpellsItems w b → Statement.allNodes b ≤ w.length
  | .nil => Nat.le_refl _
  | .newLine h => Nat.le_succ_of_le h.nodes_le
  | .conditional hs h => by
    have hle := hs.nodes_le
    have hle' := h.nodes_le
    simp only [Statement.allNodes, List.length_append]
    omega
  | .simple hs h _ => by
    have hle := hs.nodes_le
    have hle' := h.nodes_le
    simp only [Statement.allNodes, List.length_append]
    omega

end

theorem SpellsFunction.nodes_le {w : List Token} {f : Function} (h : SpellsFunction w f) : f.nodes ≤ w.length := by
  cases h with
  | intro m n hps hb =>
    have hle := hb.nodes_le
    simp only [Function.nodes, List.length_cons, List.length_append]
    omega

theorem SpellsEntity.nodes_le {w rest : List Token} {e : Entity} (h : SpellsEntity w rest e) : e.nodes ≤ w.length := by
  cases h with
  | function hf => exact hf.nodes_le
  | declaration hs _ => exact hs.nodes_le

theorem SpellsEntities.nodes_le {w rest : List Token} {es : List Entity} (h : SpellsEntities w rest es) :
    Entity.allNodes es ≤ w.length := by
  induction h with
  | nil => exact Nat.le_refl _
  | newLine _ ih => exact Nat.le_succ_of_le ih
  | entity he _ ih =>
    have hle := he.nodes_le
    simp only [Entity.allNodes, List.length_append]
    omega

/-! ## Tokens that are taken -/

/-- The significant tokens asked for, as far as there are any, are among those taken. -/
theorem min_le_taken (asked : Nat) (tokens : List Token) : min asked (significant tokens).length ≤ taken asked tokens := by
  have hpulls : ∀ (asked : Nat) (ts : List Token), min asked (significant ts).length ≤ pulls asked ts := by
    intro asked ts
    induction ts generalizing asked with
    | nil => simp [significant]
    | cons t ts ih =>
      cases asked with
      | zero => simp
      | succ asked =>
        have hrest := ih (if t.isTrivia then asked + 1 else asked)
        cases ht : t.isTrivia with
        | true =>
          simp only [ht, if_true, significant, List.filter_cons, Bool.not_true, Bool.false_eq_true, if_false, pulls] at hrest ⊢
          omega
        | false =>
          simp only [ht, Bool.false_eq_true, if_false, significant, List.filter_cons, Bool.not_false, if_true, pulls,
            List.length_cons] at hrest ⊢
          omega
  have hlength : (significant tokens).length ≤ tokens.length := List.length_filter_le _ _
  have hle := hpulls asked tokens
  rw [taken]
  omega

/-- The file loop has asked for the tokens that its entities take. -/
theorem Halts.length_le {total : Nat} {w rest : List Token} {ending : Ending} {asked : Nat} (h : Halts total rest ending asked)
    (htotal : total = w.length + rest.length) : w.length ≤ min asked total := by
  cases h with
  | exhausted =>
    simp only [List.length_nil] at htotal
    omega
  | foreign =>
    simp only [List.length_cons] at htotal
    omega
  | @declaration b ts =>
    have hasked := le_asked_declaration b (Cursor.on (.keyword (.binding b) :: ts)) rfl total
    simp only [Cursor.on_cons, List.length_cons] at hasked htotal ⊢
    omega
  | @function ts =>
    have hasked := le_asked_function (Cursor.on (.keyword .function :: ts)) rfl total
    simp only [Cursor.on_cons, List.length_cons] at hasked htotal ⊢
    omega

/-- **A file** has no more nodes than tokens were taken. -/
theorem nodes_ofTokens_le (tokens : List Token) :
    (File.ofTokens tokens).nodes ≤ taken (Reading.ofTokens tokens).asked tokens := by
  cases hts : significant tokens with
  | nil =>
    have hnone : (File.ofTokens tokens).entities = [] := by rw [entities_ofTokens, hts, parsed]
    rw [File.nodes, hnone]
    exact Nat.zero_le _
  | cons t ts =>
    obtain ⟨w, rest, hw, hs, hhalt⟩ := accounts_entities (significant tokens).length (Cursor.on (t :: ts)) rfl
    rw [Cursor.ahead_on, ← hts] at hw
    rw [← hts, ← reading_ofTokens (by simp [hts])] at hs hhalt
    calc (File.ofTokens tokens).nodes
      _ ≤ w.length := hs.nodes_le
      _ ≤ min (Reading.ofTokens tokens).asked (significant tokens).length := hhalt.length_le (by rw [hw, List.length_append])
      _ ≤ taken (Reading.ofTokens tokens).asked tokens := min_le_taken _ _

/-- Behind a match, the tokens in front of the cursor have been asked for. -/
theorem asked_of_result? {α : Type} {n : Nat} {o : Outcome α n} {a : α} {d : Cursor} (h : o.result? = some (a, d))
    (total : Nat) : o.asked total = total - d.unread.length := by
  cases o with
  | matched a c hc =>
    cases h
    rfl
  | _ => cases h

/-- **An expression** has no more nodes than tokens were taken. -/
theorem nodes_ofTokens?_le {tokens : List Token} {e : Expr} (h : Expr.ofTokens? tokens = some e) :
    e.nodes ≤ taken ((Expr.outcome tokens).asked (significant tokens).length) tokens := by
  obtain ⟨⟨e, d⟩, hr, rfl⟩ := Option.map_eq_some_iff.mp h
  have hasked := asked_of_result? hr (significant tokens).length
  obtain ⟨_, c, _, hstep, -, hbind⟩ := Cursor.result?_take.mp hr
  obtain ⟨_, _, _, he, hmatch⟩ := Outcome.result?_bind.mp hbind
  cases hmatch
  obtain ⟨w, t, hw, hs, ht, -⟩ := expression_sound lowestPriority c he
  have hsignificant : significant tokens = w ++ t :: d.unread := by
    rw [← Cursor.ahead_of_current ht, ← hw, ← Cursor.unread_of_advance hstep]
    rfl
  have hlength : (significant tokens).length = w.length + (d.unread.length + 1) := by
    rw [hsignificant, List.length_append, List.length_cons]
  have hle := hs.nodes_le
  have htaken := min_le_taken ((Expr.outcome tokens).asked (significant tokens).length) tokens
  simp only
  omega

end Grammar

end Parlance
