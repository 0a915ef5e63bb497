import SqlTree.Enumerated

namespace SqlTree

/-- An optional construct of the language, which a dialect may lack. -/
inductive Feature where
  | customOperator
  | distinctOn
  | lateral
  | lockShare
  | lockNoKeyUpdate
  | lockKeyShare
  | lockNowait
  | lockSkipLocked
  | atTimeZone
  | arrayLiteral
  | exponentiation
  | dollarStringLiteral
  | escapeStringLiteral
  | bitStringLiteral
  | hexStringLiteral
  | arrayTypeName
  | timeZoneTypeName
  | tableInheritance
  | filterClause
  | withinGroup
  | materializedCte
  | groupsFrame
  | frameExclusion
  | symmetricBetween
  | isDistinctFrom
  deriving DecidableEq, Repr

namespace Feature

/-- Every feature, in the order in which they are listed. -/
def all : List Feature :=
  [.customOperator, .distinctOn, .lateral, .lockShare, .lockNoKeyUpdate, .lockKeyShare,
  .lockNowait, .lockSkipLocked, .atTimeZone, .arrayLiteral, .exponentiation, .dollarStringLiteral,
  .escapeStringLiteral, .bitStringLiteral, .hexStringLiteral, .arrayTypeName, .timeZoneTypeName,
  .tableInheritance, .filterClause, .withinGroup, .materializedCte, .groupsFrame, .frameExclusion,
  .symmetricBetween, .isDistinctFrom]

/-- The name of a feature in interchange. -/
def tag : Feature → String
  | .customOperator => "CustomOperator"
  | .distinctOn => "DistinctOn"
  | .lateral => "Lateral"
  | .lockShare => "LockShare"
  | .lockNoKeyUpdate => "LockNoKeyUpdate"
  | .lockKeyShare => "LockKeyShare"
  | .lockNowait => "LockNowait"
  | .lockSkipLocked => "LockSkipLocked"
  | .atTimeZone => "AtTimeZone"
  | .arrayLiteral => "ArrayLiteral"
  | .exponentiation => "Exponentiation"
  | .dollarStringLiteral => "DollarStringLiteral"
  | .escapeStringLiteral => "EscapeStringLiteral"
  | .bitStringLiteral => "BitStringLiteral"
  | .hexStringLiteral => "HexStringLiteral"
  | .arrayTypeName => "ArrayTypeName"
  | .timeZoneTypeName => "TimeZoneTypeName"
  | .tableInheritance => "TableInheritance"
  | .filterClause => "FilterClause"
  | .withinGroup => "WithinGroup"
  | .materializedCte => "MaterializedCte"
  | .groupsFrame => "GroupsFrame"
  | .frameExclusion => "FrameExclusion"
  | .symmetricBetween => "SymmetricBetween"
  | .isDistinctFrom => "IsDistinctFrom"

/-- The name of a feature in messages. -/
def name : Feature → String
  | .customOperator => "CUSTOM_OPERATOR"
  | .distinctOn => "DISTINCT_ON"
  | .lateral => "LATERAL"
  | .lockShare => "LOCK_SHARE"
  | .lockNoKeyUpdate => "LOCK_NO_KEY_UPDATE"
  | .lockKeyShare => "LOCK_KEY_SHARE"
  | .lockNowait => "LOCK_NOWAIT"
  | .lockSkipLocked => "LOCK_SKIP_LOCKED"
  | .atTimeZone => "AT_TIME_ZONE"
  | .arrayLiteral => "ARRAY_LITERAL"
  | .exponentiation => "EXPONENTIATION"
  | .dollarStringLiteral => "DOLLAR_STRING_LITERAL"
  | .escapeStringLiteral => "ESCAPE_STRING_LITERAL"
  | .bitStringLiteral => "BIT_STRING_LITERAL"
  | .hexStringLiteral => "HEX_STRING_LITERAL"
  | .arrayTypeName => "ARRAY_TYPE_NAME"
  | .timeZoneTypeName => "TIME_ZONE_TYPE_NAME"
  | .tableInheritance => "TABLE_INHERITANCE"
  | .filterClause => "FILTER_CLAUSE"
  | .withinGroup => "WITHIN_GROUP"
  | .materializedCte => "MATERIALIZED_CTE"
  | .groupsFrame => "GROUPS_FRAME"
  | .frameExclusion => "FRAME_EXCLUSION"
  | .symmetricBetween => "SYMMETRIC_BETWEEN"
  | .isDistinctFrom => "IS_DISTINCT_FROM"

instance : Enumerated Feature := ⟨all, tag⟩

end Feature

/-- A construct that a dialect can only write when it has the construct's feature. -/
inductive Construct where
  | withinGroup
  | filter
  | power
  | customOperator
  | withTimeZone
  | withoutTimeZone
  | arrayType
  | arrayLiteral
  | atTimeZone
  | symmetricBetween
  | isDistinctFrom
  | bitString
  | hexString
  | escapeString
  | dollarString
  | only
  | descendants
  | lateral
  | materialized
  | notMaterialized
  | distinctOn
  | forShare
  | forNoKeyUpdate
  | forKeyShare
  | nowait
  | skipLocked
  | exclude
  | groupsFrame
  deriving DecidableEq, Repr

namespace Construct

def feature : Construct → Feature
  | .withinGroup => .withinGroup
  | .filter => .filterClause
  | .power => .exponentiation
  | .customOperator => .customOperator
  | .withTimeZone => .timeZoneTypeName
  | .withoutTimeZone => .timeZoneTypeName
  | .arrayType => .arrayTypeName
  | .arrayLiteral => .arrayLiteral
  | .atTimeZone => .atTimeZone
  | .symmetricBetween => .symmetricBetween
  | .isDistinctFrom => .isDistinctFrom
  | .bitString => .bitStringLiteral
  | .hexString => .hexStringLiteral
  | .escapeString => .escapeStringLiteral
  | .dollarString => .dollarStringLiteral
  | .only => .tableInheritance
  | .descendants => .tableInheritance
  | .lateral => .lateral
  | .materialized => .materializedCte
  | .notMaterialized => .materializedCte
  | .distinctOn => .distinctOn
  | .forShare => .lockShare
  | .forNoKeyUpdate => .lockNoKeyUpdate
  | .forKeyShare => .lockKeyShare
  | .nowait => .lockNowait
  | .skipLocked => .lockSkipLocked
  | .exclude => .frameExclusion
  | .groupsFrame => .groupsFrame

/-- How messages call the construct. -/
def label : Construct → String
  | .withinGroup => "WITHIN GROUP"
  | .filter => "FILTER"
  | .power => "^ operator"
  | .customOperator => "custom operator"
  | .withTimeZone => "WITH TIME ZONE"
  | .withoutTimeZone => "WITHOUT TIME ZONE"
  | .arrayType => "array type"
  | .arrayLiteral => "ARRAY[...]"
  | .atTimeZone => "AT TIME ZONE"
  | .symmetricBetween => "BETWEEN SYMMETRIC"
  | .isDistinctFrom => "IS DISTINCT FROM"
  | .bitString => "bit string literal"
  | .hexString => "hex string literal"
  | .escapeString => "escape string literal"
  | .dollarString => "dollar-quoted string"
  | .only => "ONLY"
  | .descendants => "table *"
  | .lateral => "LATERAL"
  | .materialized => "MATERIALIZED"
  | .notMaterialized => "NOT MATERIALIZED"
  | .distinctOn => "DISTINCT ON"
  | .forShare => "FOR SHARE"
  | .forNoKeyUpdate => "FOR NO KEY UPDATE"
  | .forKeyShare => "FOR KEY SHARE"
  | .nowait => "NOWAIT"
  | .skipLocked => "SKIP LOCKED"
  | .exclude => "EXCLUDE"
  | .groupsFrame => "GROUPS frame"

end Construct

/-- The set of features that a dialect has. -/
structure Capabilities where
  supports : Feature → Bool

namespace Capabilities

def none : Capabilities :=
  ⟨fun _ => false⟩

def all : Capabilities :=
  ⟨fun _ => true⟩

def insert (caps : Capabilities) (feature : Feature) : Capabilities :=
  ⟨fun f => f = feature || caps.supports f⟩

def erase (caps : Capabilities) (feature : Feature) : Capabilities :=
  ⟨fun f => f ≠ feature && caps.supports f⟩

def ofList (features : List Feature) : Capabilities :=
  ⟨fun f => features.contains f⟩

/-- The features of the set, in the order of `Feature.all`. -/
def toList (caps : Capabilities) : List Feature :=
  Feature.all.filter caps.supports

/-- What the standard dialect has. -/
def standard : Capabilities :=
  ofList
    [.lateral, .atTimeZone, .arrayLiteral, .bitStringLiteral, .hexStringLiteral, .arrayTypeName,
      .timeZoneTypeName, .filterClause, .withinGroup, .groupsFrame, .frameExclusion,
      .symmetricBetween, .isDistinctFrom]

end Capabilities

end SqlTree
