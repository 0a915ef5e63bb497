import SqlTree.Tree

namespace SqlTree

/-- The same alternative with equal attributes. -/
def Form.beq : {k : Kind} → Form k → Form k → Bool
  | _, .expr a, .expr x => a == x
  | _, .literal a, .literal x => a == x
  | _, .column a, .column x => a == x
  | _, .param a, .param x => a == x
  | _, .call a b, .call x y => a == x && b == y
  | _, .callStar a b, .callStar x y => a == x && b == y
  | _, .case, .case => true
  | _, .arithmetic a, .arithmetic x => a == x
  | _, .negate, .negate => true
  | _, .customBinary a, .customBinary x => a == x
  | _, .customUnary a, .customUnary x => a == x
  | _, .cast, .cast => true
  | _, .typeName a b c, .typeName x y z => a == x && b == y && c == z
  | _, .array, .array => true
  | _, .row, .row => true
  | _, .rowList, .rowList => true
  | _, .subquery, .subquery => true
  | _, .collate a, .collate x => a == x
  | _, .atTimeZone, .atTimeZone => true
  | _, .predicate a, .predicate x => a == x
  | _, .comparison a, .comparison x => a == x
  | _, .between a, .between x => a == x
  | _, .like a, .like x => a == x
  | _, .isNull a, .isNull x => a == x
  | _, .isDistinctFrom a, .isDistinctFrom x => a == x
  | _, .membership a, .membership x => a == x
  | _, .existence a, .existence x => a == x
  | _, .quantified a b, .quantified x y => a == x && b == y
  | _, .condition, .condition => true
  | _, .negation, .negation => true
  | _, .connective a, .connective x => a == x
  | _, .valueSet a, .valueSet x => a == x
  | _, .tableRef a, .tableRef x => a == x
  | _, .namedTable a, .namedTable x => a == x
  | _, .subqueryTable a, .subqueryTable x => a == x
  | _, .valuesTable a, .valuesTable x => a == x
  | _, .functionTable a, .functionTable x => a == x
  | _, .lateralTable, .lateralTable => true
  | _, .join a, .join x => a == x
  | _, .crossJoin, .crossJoin => true
  | _, .naturalJoin, .naturalJoin => true
  | _, .usingJoin a b, .usingJoin x y => a == x && b == y
  | _, .onJoin a, .onJoin x => a == x
  | _, .query a, .query x => a == x
  | _, .select, .select => true
  | _, .composite a, .composite x => a == x
  | _, .withQuery a, .withQuery x => a == x
  | _, .cte a b c, .cte x y z => a == x && b == y && c == z
  | _, .aliased a, .aliased x => a == x
  | _, .star, .star => true
  | _, .qualifiedStar a, .qualifiedStar x => a == x
  | _, .distinct, .distinct => true
  | _, .distinctOn, .distinctOn => true
  | _, .groupBy, .groupBy => true
  | _, .orderBy, .orderBy => true
  | _, .orderItem a b, .orderItem x y => a == x && b == y
  | _, .limitOffset a, .limitOffset x => a == x
  | _, .locking a, .locking x => a == x
  | _, .windowDef a, .windowDef x => a == x
  | _, .windowSpec a, .windowSpec x => a == x
  | _, .overName a, .overName x => a == x
  | _, .overSpec, .overSpec => true
  | _, .partitionBy, .partitionBy => true
  | _, .frameFrom a, .frameFrom x => a == x
  | _, .frameBetween a, .frameBetween x => a == x
  | _, .boundAt a, .boundAt x => a == x
  | _, .boundOffset a, .boundOffset x => a == x
  | _, _, _ => false

instance {k : Kind} : BEq (Form k) := ⟨Form.beq⟩

mutual

/-- The same forms with equal attributes at the same places. Decimals are equal when they denote the same number,
so equal trees need not be identical. -/
def Tree.beq : {k : Kind} → Tree k → Tree k → Bool
  | _, .node f below, .node g others =>
    if h : f.slots = g.slots then f == g && below.beq (h ▸ others) else false

def Forest.beq : {slots : List Slot} → Forest slots → Forest slots → Bool
  | _, .nil, .nil => true
  | _, .one t rest, .one u others => t.beq u && rest.beq others
  | _, .absent rest, .absent others => rest.beq others
  | _, .present t rest, .present u others => t.beq u && rest.beq others
  | _, .done rest, .done others => rest.beq others
  | _, .more t rest, .more u others => t.beq u && rest.beq others
  | _, .noArm rest, .noArm others => rest.beq others
  | _, .arm c t rest, .arm d u others => c.beq d && t.beq u && rest.beq others
  | _, _, _ => false

end

instance {k : Kind} : BEq (Tree k) := ⟨Tree.beq⟩

end SqlTree
