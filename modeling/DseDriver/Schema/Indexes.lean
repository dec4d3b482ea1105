import DseDriver.Cql.Identifiers
import Mathlib.Data.List.Infix

/-!
# Indexes of tables

`update_indexes` reads the rows of `system_schema.indexes` and keeps the keyspace and the table of
the last row, so that it looks a table up only when its name changes.  Before version 3 an index is
an option of a column, and `target_from_legacy` tells its target from the keys of the options.
-/

namespace DseDriver.Schema

open DseDriver.Cql HashTable List Option Function

/-- The bytes of a literal. -/
def ascii (literal : String) : List UInt8 :=
  literal.toList.map fun character => UInt8.ofNat character.toNat

/-- The value of an options column that is not null. -/
inductive OptionsValue where
  | map (entries : List (List UInt8 × List UInt8))
  | other
  deriving DecidableEq, Repr

/-- `CassIndexType`. -/
inductive IndexType where
  | unknown
  | keys
  | custom
  | composites
  deriving DecidableEq, Repr

/-- `index_type_from_string`. -/
def IndexType.fromString (indexType : List UInt8) : IndexType :=
  if StringRef.iequals indexType (ascii "keys") then keys
  else if StringRef.iequals indexType (ascii "custom") then custom
  else if StringRef.iequals indexType (ascii "composites") then composites
  else unknown

/-! ## Targets of legacy indexes -/

/-- The part of a `ColumnMetadata` that the target of an index depends on. -/
structure IndexedColumn where
  name : List UInt8
  isCollection : Bool
  deriving DecidableEq, Repr

/-- A function name around a column. -/
def targetCall (function : String) (column : List UInt8) : List UInt8 :=
  ascii function ++ ascii "(" ++ column ++ ascii ")"

/-- The loop of `target_from_legacy` over the options. -/
def legacyTarget (columnName : List UInt8) (isCollection : Bool) :
    List (List UInt8 × List UInt8) → List UInt8
  | [] => columnName
  | (key, _) :: entries =>
    if ascii "index_keys" <:+: key then targetCall "keys" columnName
    else if ascii "index_keys_and_values" <:+: key then targetCall "entries" columnName
    else if isCollection then targetCall "full" columnName
    else legacyTarget columnName isCollection entries

/-- `target_from_legacy`. -/
def targetFromLegacy (column : IndexedColumn) (options : Option OptionsValue) : List UInt8 :=
  let columnName := CqlId.escapeId column.name
  match options with
  | some (.map entries) => legacyTarget columnName column.isCollection entries
  | _ => columnName

/-- The target that the keys of the options stand for, in whatever order they are. -/
def targetOfKeys (columnName : List UInt8) (isCollection : Bool) (keys : List (List UInt8)) :
    List UInt8 :=
  if ascii "index_keys" ∈ keys then targetCall "keys" columnName
  else if ascii "index_keys_and_values" ∈ keys then targetCall "entries" columnName
  else if keys ≠ [] ∧ isCollection then targetCall "full" columnName
  else columnName

def OptionsValue.keys : Option OptionsValue → List (List UInt8)
  | some (.map entries) => entries.map Prod.fst
  | _ => []

/-- The loop finds `index_keys` in a key that it looks at: it does not go past the first one for a
collection. -/
def findsIndexKeys (isCollection : Bool) (keys : List (List UInt8)) : Bool :=
  (if isCollection then keys.take 1 else keys).any fun key => ascii "index_keys" <:+: key

theorem legacyTarget_eq (columnName : List UInt8) (isCollection : Bool)
    (entries : List (List UInt8 × List UInt8)) :
    legacyTarget columnName isCollection entries =
      if findsIndexKeys isCollection (entries.map Prod.fst) then targetCall "keys" columnName
      else if entries.map Prod.fst ≠ [] ∧ isCollection then targetCall "full" columnName
      else columnName := by
  have longer : ascii "index_keys" <:+: ascii "index_keys_and_values" := by decide +kernel
  induction entries with
  | nil => cases isCollection <;> rfl
  | cons entry entries ih =>
    rw [legacyTarget]
    by_cases found : ascii "index_keys" <:+: entry.1
    · rw [if_pos found, if_pos]
      cases isCollection <;> simp [findsIndexKeys, found]
    · have notLonger : ¬ ascii "index_keys_and_values" <:+: entry.1 :=
        fun within => found (longer.trans within)
      rw [if_neg found, if_neg notLonger]
      cases isCollection with
      | true => simp [findsIndexKeys, found]
      | false =>
        have same (keys : List (List UInt8)) :
            findsIndexKeys false (entry.1 :: keys) = findsIndexKeys false keys := by
          simp [findsIndexKeys, found]
        rw [if_neg Bool.false_ne_true, ih, map_cons, same]
        simp

theorem targetCall_ne (function : String) (columnName : List UInt8) :
    targetCall function columnName ≠ columnName := by
  intro same
  have lengths := congrArg List.length same
  simp [targetCall, ascii] at lengths
  omega

/-- The functions around a column are told apart by their first letter. -/
theorem targetCall_inj {function other : String} {columnName : List UInt8}
    (same : targetCall function columnName = targetCall other columnName) :
    ascii function = ascii other := by
  simpa [targetCall] using same

/-- The target is the one of the keys exactly when no other key is taken for `index_keys`, and
`index_keys` is not passed over. -/
theorem targetFromLegacy_iff (column : IndexedColumn) (options : Option OptionsValue) :
    targetFromLegacy column options =
        targetOfKeys (CqlId.escapeId column.name) column.isCollection (OptionsValue.keys options) ↔
      (ascii "index_keys_and_values" ∈ OptionsValue.keys options →
        ascii "index_keys" ∈ OptionsValue.keys options) ∧
      (findsIndexKeys column.isCollection (OptionsValue.keys options) = true ↔
        ascii "index_keys" ∈ OptionsValue.keys options) := by
  generalize named : CqlId.escapeId column.name = columnName
  have target : targetFromLegacy column options =
      if findsIndexKeys column.isCollection (OptionsValue.keys options) then
        targetCall "keys" columnName
      else if OptionsValue.keys options ≠ [] ∧ column.isCollection then targetCall "full" columnName
      else columnName := by
    rcases options with _ | _ | _
    · simp [targetFromLegacy, OptionsValue.keys, findsIndexKeys, named]
    · rw [targetFromLegacy, named]
      exact legacyTarget_eq columnName column.isCollection _
    · simp [targetFromLegacy, OptionsValue.keys, findsIndexKeys, named]
  rw [target, targetOfKeys]
  generalize OptionsValue.keys options = keys
  have differ {function other : String} (first : ascii function ≠ ascii other) :
      targetCall function columnName ≠ targetCall other columnName :=
    fun same => first (targetCall_inj same)
  -- What the loop gives when it does not find `index_keys` is neither of the other two targets.
  generalize otherwise : (if keys ≠ [] ∧ column.isCollection = true then
    targetCall "full" columnName else columnName) = rest
  have notKeys : rest ≠ targetCall "keys" columnName := by
    rw [← otherwise]
    split
    · exact differ (by decide)
    · exact (targetCall_ne _ _).symm
  have notEntries : rest ≠ targetCall "entries" columnName := by
    rw [← otherwise]
    split
    · exact differ (by decide)
    · exact (targetCall_ne _ _).symm
  have keysNotEntries := differ (show ascii "keys" ≠ ascii "entries" by decide)
  by_cases listed : ascii "index_keys" ∈ keys
  · cases findsIndexKeys column.isCollection keys <;> simp [listed, notKeys]
  · by_cases longer : ascii "index_keys_and_values" ∈ keys
    · cases findsIndexKeys column.isCollection keys <;>
        simp [listed, longer, notEntries, keysNotEntries]
    · cases findsIndexKeys column.isCollection keys <;> simp [listed, longer, notKeys.symm]

/-- The only option `index_keys_and_values` is taken for `index_keys`. -/
theorem targetFromLegacy_entries_as_keys :
    targetFromLegacy ⟨ascii "m", true⟩ (some (.map [(ascii "index_keys_and_values", [])])) =
        ascii "keys(m)" ∧
      targetOfKeys (CqlId.escapeId (ascii "m")) true [ascii "index_keys_and_values"] =
        ascii "entries(m)" := by
  decide +kernel

/-! ## Rows of indexes -/

/-- An index.  Options that are `none` are a null value. -/
structure IndexMetadata where
  name : List UInt8
  type : IndexType
  target : List UInt8
  options : Option OptionsValue
  deriving DecidableEq, Repr

/-- A row of `system_schema.indexes`.  A name is `none` when the column is null or is not there, and
so are the kind, when it is no text, and the options. -/
structure IndexRow where
  keyspaceName : Option (List UInt8)
  tableName : Option (List UInt8)
  indexName : Option (List UInt8)
  kind : Option (List UInt8)
  options : Option OptionsValue

/-- A row with all its names. -/
structure NamedRow where
  keyspaceName : List UInt8
  tableName : List UInt8
  index : IndexMetadata

/-- The names of a keyspace and a table. -/
abbrev TableKey := List UInt8 × List UInt8

/-- The keyspaces with their tables, and the tables with their indexes in `indexes_`, which are those
of `indexes_by_name_`. -/
abbrev Keyspaces := List UInt8 → Option (List UInt8 → Option (List IndexMetadata))

/-- The keyspace and the table. -/
def NamedRow.key (row : NamedRow) : TableKey := (row.keyspaceName, row.tableName)

/-- The last `target` of the options. -/
def OptionsValue.target : Option OptionsValue → List UInt8
  | some (.map entries) =>
    ((entries.filter fun entry => entry.1 = ascii "target").getLast?.map Prod.snd).getD []
  | _ => []

/-- The index that a row describes, for a row that has all its names. -/
def IndexRow.named (row : IndexRow) : Option NamedRow := do
  return {
    keyspaceName := ← row.keyspaceName
    tableName := ← row.tableName
    index :=
      { name := ← row.indexName
        type := .fromString (row.kind.getD [])
        target := OptionsValue.target row.options
        options := row.options } }

/-- `from_row`; `none` when null options are dereferenced. -/
def fromRow (row : NamedRow) : Option IndexMetadata :=
  if row.index.options.isSome then some row.index else none

/-- `add_index`. -/
def addIndex (indexes : List IndexMetadata) (index : IndexMetadata) : List IndexMetadata :=
  if index.name ∈ indexes.map IndexMetadata.name then indexes else indexes ++ [index]

namespace Keyspaces

variable (keyspaces : Keyspaces)

/-- `get_table`. -/
def getTable (key : TableKey) : Option (List IndexMetadata) :=
  (keyspaces key.1).bind fun tables => tables key.2

def getOrCreateKeyspace (name : List UInt8) : Keyspaces :=
  Function.update keyspaces name (some ((keyspaces name).getD fun _ => none))

/-- Change the indexes of a table. -/
def modifyTable (key : TableKey) (change : List IndexMetadata → List IndexMetadata) : Keyspaces :=
  Function.update keyspaces key.1 ((keyspaces key.1).map fun tables =>
    Function.update tables key.2 ((tables key.2).map change))

theorem getTable_getOrCreateKeyspace (name : List UInt8) :
    (keyspaces.getOrCreateKeyspace name).getTable = keyspaces.getTable := by
  funext key
  rw [getTable, getTable, getOrCreateKeyspace]
  by_cases same : key.1 = name
  · rw [same, update_self]
    cases keyspaces name <;> rfl
  · rw [update_of_ne same]

theorem getTable_modifyTable (key other : TableKey)
    (change : List IndexMetadata → List IndexMetadata) :
    (keyspaces.modifyTable key change).getTable other =
      if other = key then (keyspaces.getTable key).map change else keyspaces.getTable other := by
  rw [getTable, modifyTable]
  by_cases first : other.1 = key.1
  · rw [first, update_self]
    by_cases second : other.2 = key.2
    · rw [if_pos (Prod.ext first second), second]
      cases found : keyspaces key.1 <;> simp [getTable, found]
    · rw [if_neg fun same => second (congrArg Prod.snd same)]
      cases found : keyspaces key.1 <;> simp [getTable, found, first, second]
  · rw [update_of_ne first, if_neg fun same => first (congrArg Prod.fst same)]
    rfl

end Keyspaces

/-- The local variables of `update_indexes`.  The pointers are the names of what they point to. -/
structure IndexLoop where
  keyspaces : Keyspaces
  keyspaceName : List UInt8
  tableName : List UInt8
  keyspace : Option (List UInt8)
  table : Option TableKey

namespace IndexLoop

/-- The variables in front of the rows. -/
def start (keyspaces : Keyspaces) : IndexLoop := ⟨keyspaces, [], [], none, none⟩

/-- The keyspace of a row is looked up when it is another one. -/
def enterKeyspace (loop : IndexLoop) (name : List UInt8) : IndexLoop :=
  if loop.keyspaceName = name then
    loop
  else
    { loop with
      keyspaceName := name
      keyspaces := loop.keyspaces.getOrCreateKeyspace name
      keyspace := some name
      tableName := [] }

/-- `table->add_index(from_row(...))`. -/
def addRow (loop : IndexLoop) (row : NamedRow) : Option IndexLoop := do
  let key ← loop.table
  let index ← fromRow row
  return { loop with keyspaces := loop.keyspaces.modifyTable key fun indexes => addIndex indexes index }

/-- The body of the loop for a row with all its names; `none` when a null pointer is
dereferenced. -/
def readRow (loop : IndexLoop) (row : NamedRow) : Option IndexLoop := do
  let loop := loop.enterKeyspace row.keyspaceName
  if loop.tableName = row.tableName then
    loop.addRow row
  else
    let keyspace ← loop.keyspace
    let key := (keyspace, row.tableName)
    match loop.keyspaces.getTable key with
    | none => return { loop with tableName := row.tableName, table := none }
    | some _ =>
      addRow
        { loop with
          tableName := row.tableName
          table := some key
          keyspaces := loop.keyspaces.modifyTable key fun _ => [] } row

end IndexLoop

/-- `update_indexes`; a row without one of its names is skipped. -/
def updateIndexes (keyspaces : Keyspaces) (rows : List IndexRow) : Option Keyspaces :=
  ((rows.filterMap IndexRow.named).foldlM IndexLoop.readRow (.start keyspaces)).map
    IndexLoop.keyspaces

/-! ## Rows that are handled on their own -/

/-- The indexes of the rows of a table. -/
def indexesOf (rows : List NamedRow) : List IndexMetadata :=
  (rows.map NamedRow.index).foldl addIndex []

/-- The indexes of a table when these are its rows, which replace those it had. -/
def replaced (rows : List NamedRow) (indexes : List IndexMetadata) : List IndexMetadata :=
  if rows = [] then indexes else indexesOf rows

/-- The rows of a table. -/
def rowsOf (key : TableKey) (rows : List NamedRow) : List NamedRow :=
  rows.filter fun row => row.key = key

/-- The table of a row behind others, the newest of them first, is looked up if its name is another
one than that of the row before it, or is not empty when that is a row of another keyspace. -/
def LooksUp (older : List NamedRow) (row : NamedRow) : Prop :=
  row.tableName ≠ ((older.head?.filter (·.keyspaceName = row.keyspaceName)).map
    NamedRow.tableName).getD []

instance (older : List NamedRow) (row : NamedRow) : Decidable (LooksUp older row) :=
  inferInstanceAs (Decidable (_ ≠ _))

/-- The table that was looked up last. -/
def lookedUp : List NamedRow → Option TableKey
  | [] => none
  | row :: older => if LooksUp older row then some row.key else lookedUp older

/-- The rows since a table was last looked up, until another one is. -/
def lastStretch (key : TableKey) : List NamedRow → List NamedRow
  | [] => []
  | row :: older =>
    if lookedUp (row :: older) ≠ some key then lastStretch key older
    else if LooksUp older row then [row]
    else row :: lastStretch key older

theorem lastStretch_ne_nil {key : TableKey} {rows : List NamedRow}
    (last : lookedUp rows = some key) : lastStretch key rows ≠ [] := by
  cases rows with
  | nil => cases last
  | cons row older =>
    rw [lastStretch, if_neg (not_not.mpr last)]
    split <;> exact cons_ne_nil _ _

/-- The table is known. -/
def Keyspaces.Knows (before : Keyspaces) (key : Option TableKey) : Prop :=
  (key.bind before.getTable).isSome

/-- The row has what the loop dereferences behind older rows: a keyspace, a table, and the options
for a table that is known. -/
structure Accepts (before : Keyspaces) (older : List NamedRow) (row : NamedRow) : Prop where
  keyspace : older = [] → row.keyspaceName ≠ []
  table : ¬ LooksUp older row → before.Knows (lookedUp older)
  options : before.Knows (lookedUp (row :: older)) → row.index.options.isSome

namespace IndexLoop

/-- The loop behind some rows, the newest first: it has the names of the last one, and each table
has the rows of its last stretch. -/
structure Follows (before : Keyspaces) (older : List NamedRow) (loop : IndexLoop) : Prop where
  keyspaceName : loop.keyspaceName = (older.head?.map NamedRow.keyspaceName).getD []
  keyspace : loop.keyspace = older.head?.map NamedRow.keyspaceName
  tableName : loop.tableName = (older.head?.map NamedRow.tableName).getD []
  table : loop.table = (lookedUp older).filter fun key => (before.getTable key).isSome
  tables : ∀ key, loop.keyspaces.getTable key =
    (before.getTable key).map (replaced (lastStretch key older).reverse)

variable {before : Keyspaces} {older : List NamedRow} {loop : IndexLoop} {row : NamedRow}

/-- The loop in the keyspace of a row. -/
structure Entered (before : Keyspaces) (older : List NamedRow) (row : NamedRow) (loop : IndexLoop) :
    Prop where
  keyspaceName : loop.keyspaceName = row.keyspaceName
  keyspace : loop.keyspace =
    if older = [] ∧ row.keyspaceName = [] then none else some row.keyspaceName
  tableName : loop.tableName = row.tableName ↔ ¬ LooksUp older row
  table : loop.table = (lookedUp older).filter fun key => (before.getTable key).isSome
  tables : ∀ key, loop.keyspaces.getTable key =
    (before.getTable key).map (replaced (lastStretch key older).reverse)

theorem Follows.enterKeyspace (follows : Follows before older loop) (row : NamedRow) :
    Entered before older row (loop.enterKeyspace row.keyspaceName) := by
  rw [IndexLoop.enterKeyspace]
  split
  next same =>
    have current := follows.keyspaceName.symm.trans same
    refine ⟨same, ?_, ?_, follows.table, follows.tables⟩
    · rw [follows.keyspace]
      cases older with
      | nil => simpa using current
      | cons last rest => simpa using current
    · rw [follows.tableName, LooksUp, not_not, eq_comm]
      cases older with
      | nil => rfl
      | cons last rest =>
        have same : last.keyspaceName = row.keyspaceName := current
        simp [filter_some, same]
  next other =>
    rw [follows.keyspaceName] at other
    refine ⟨rfl, ?_, ?_, follows.table, fun key => ?_⟩
    · rw [if_neg]
      rintro ⟨rfl, empty⟩
      exact other empty.symm
    · rw [LooksUp, not_not, eq_comm]
      cases older with
      | nil => rfl
      | cons last rest =>
        have different : last.keyspaceName ≠ row.keyspaceName := other
        simp [filter_some, different]
    · rw [Keyspaces.getTable_getOrCreateKeyspace]
      exact follows.tables key

/-- A row is added to the table that was looked up last, which has the rows before it in its
stretch. -/
theorem addRow_follows {key : TableKey} {stretch : List NamedRow}
    (keyspaceName : loop.keyspaceName = row.keyspaceName)
    (keyspace : loop.keyspace = some row.keyspaceName)
    (tableName : loop.tableName = row.tableName) (table : loop.table = some key)
    (isLooked : lookedUp (row :: older) = some key) (known : (before.getTable key).isSome)
    (own : loop.keyspaces.getTable key = some (indexesOf stretch.reverse))
    (others : ∀ other ≠ key, loop.keyspaces.getTable other =
      (before.getTable other).map (replaced (lastStretch other older).reverse))
    (split : lastStretch key (row :: older) = row :: stretch) :
    (row.index.options.isSome ∧
        ∃ after, loop.addRow row = some after ∧ Follows before (row :: older) after) ∨
      ¬ row.index.options.isSome ∧ loop.addRow row = none := by
  cases given : row.index.options.isSome with
  | false => exact .inr ⟨Bool.false_ne_true, by simp [addRow, table, fromRow, given]⟩
  | true =>
    refine .inl ⟨rfl, _, by simp [addRow, table, fromRow, given]; rfl, ?_⟩
    constructor
    · simpa using keyspaceName
    · simpa using keyspace
    · simpa using tableName
    · simp [isLooked, known, filter_some]
    · intro other
      rw [Keyspaces.getTable_modifyTable]
      by_cases same : other = key
      · obtain ⟨indexes, found⟩ := isSome_iff_exists.mp known
        rw [if_pos same, own, same, found, split]
        simp [replaced, indexesOf]
      · rw [if_neg same, others other same, lastStretch, if_pos]
        rw [isLooked]
        exact fun looked => same (Option.some.inj looked).symm

/-- The loop takes a row that is accepted, and then follows the rows. -/
def Reads (before : Keyspaces) (older : List NamedRow) (row : NamedRow)
    (result : Option IndexLoop) : Prop :=
  (Accepts before older row ∧ ∃ after, result = some after ∧ Follows before (row :: older) after) ∨
    ¬ Accepts before older row ∧ result = none

/-- The table of a row is looked up, in the keyspace if there is one. -/
theorem Follows.readRow_of_looksUp (follows : Follows before older loop)
    (looksUp : LooksUp older row) : Reads before older row (loop.readRow row) := by
  have inKeyspace := follows.enterKeyspace row
  rw [IndexLoop.readRow]
  generalize loop.enterKeyspace row.keyspaceName = entered at inKeyspace ⊢
  have isLooked : lookedUp (row :: older) = some row.key := if_pos looksUp
  simp only [if_neg (mt inKeyspace.tableName.mp (not_not.mpr looksUp)), inKeyspace.keyspace]
  by_cases noKeyspace : older = [] ∧ row.keyspaceName = []
  · rw [if_pos noKeyspace]
    exact .inr ⟨fun accepts => accepts.keyspace noKeyspace.1 noKeyspace.2, rfl⟩
  rw [if_neg noKeyspace]
  have accepts : Accepts before older row ↔
      ((before.getTable row.key).isSome → row.index.options.isSome) := by
    refine ⟨fun accepts known => accepts.options (by rwa [isLooked]), fun options => ?_⟩
    refine ⟨fun first empty => noKeyspace ⟨first, empty⟩, (absurd looksUp ·), fun known => ?_⟩
    rw [isLooked] at known
    exact options known
  rw [Reads, accepts]
  have own := inKeyspace.tables row.key
  cases known : before.getTable row.key with
  | none =>
    rw [known, map_none] at own
    have looked : entered.keyspaces.getTable (row.keyspaceName, row.tableName) = none := own
    simp only [bind_eq_bind, bind_some, looked]
    refine .inl ⟨nofun, _, rfl, ?_⟩
    constructor
    · simpa using inKeyspace.keyspaceName
    · simp
    · simp
    · simp [isLooked, known, filter_some]
    · intro key
      rw [inKeyspace.tables, lastStretch, isLooked]
      by_cases same : row.key = key
      · rw [← same, known, map_none, map_none]
      · rw [if_pos fun looked => same (Option.some.inj looked)]
  | some indexes =>
    rw [known, map_some] at own
    have looked : entered.keyspaces.getTable (row.keyspaceName, row.tableName) = some _ := own
    simp only [bind_eq_bind, bind_some, looked, isSome_some, forall_const]
    have stretch : lastStretch row.key (row :: older) = [row] := by
      rw [lastStretch, if_neg (not_not.mpr isLooked), if_pos looksUp]
    refine addRow_follows inKeyspace.keyspaceName rfl rfl rfl isLooked
      (isSome_of_eq_some known) ?_ ?_ stretch
    · exact (Keyspaces.getTable_modifyTable _ _ row.key _).trans
        ((if_pos rfl).trans (congrArg (Option.map fun _ => []) looked))
    · intro key other
      exact (Keyspaces.getTable_modifyTable _ _ key _).trans
        ((if_neg other).trans (inKeyspace.tables key))

/-- The table is the one that was looked up last. -/
theorem Follows.readRow_of_not_looksUp (follows : Follows before older loop)
    (looksUp : ¬ LooksUp older row) : Reads before older row (loop.readRow row) := by
  have inKeyspace := follows.enterKeyspace row
  rw [IndexLoop.readRow]
  generalize loop.enterKeyspace row.keyspaceName = entered at inKeyspace ⊢
  have isLooked : lookedUp (row :: older) = lookedUp older := if_neg looksUp
  simp only [if_pos (inKeyspace.tableName.mpr looksUp)]
  have table := inKeyspace.table
  cases last : lookedUp older with
  | none =>
    rw [last] at table
    refine .inr ⟨fun accepts => ?_, by simp [addRow, table]⟩
    have known := accepts.table looksUp
    rw [last] at known
    exact absurd known nofun
  | some key =>
    rw [last, filter_some] at table
    by_cases known : (before.getTable key).isSome
    · have accepts : Accepts before older row ↔ row.index.options.isSome := by
        refine ⟨fun accepts => accepts.options (by rwa [isLooked, last]), fun options => ?_⟩
        exact ⟨fun first => (by rw [first] at last; cases last), fun _ => by rwa [last],
          fun _ => options⟩
      have keyspace : entered.keyspace = some row.keyspaceName := by
        rw [inKeyspace.keyspace, if_neg]
        rintro ⟨rfl, -⟩
        cases last
      have own := inKeyspace.tables key
      obtain ⟨indexes, found⟩ := isSome_iff_exists.mp known
      rw [found, map_some, replaced,
        if_neg (mt reverse_eq_nil_iff.mp (lastStretch_ne_nil last))] at own
      rw [Reads, accepts]
      refine addRow_follows inKeyspace.keyspaceName keyspace
        (inKeyspace.tableName.mpr looksUp) (table.trans (if_pos known)) (isLooked.trans last)
        known own (fun other _ => inKeyspace.tables other) ?_
      rw [lastStretch, if_neg (not_not.mpr (isLooked.trans last)), if_neg looksUp]
    · rw [if_neg known] at table
      refine .inr ⟨fun accepts => known ?_, by simp [addRow, table]⟩
      have knows := accepts.table looksUp
      rwa [last] at knows

theorem Follows.readRow (follows : Follows before older loop) (row : NamedRow) :
    Reads before older row (loop.readRow row) := by
  by_cases looksUp : LooksUp older row
  · exact follows.readRow_of_looksUp looksUp
  · exact follows.readRow_of_not_looksUp looksUp

/-- The loop reaches its end exactly when each row is accepted behind the older ones. -/
theorem foldlM_readRow (before : Keyspaces) (newest : List NamedRow) :
    ((∀ row older, row :: older <:+ newest → Accepts before older row) ∧
        ∃ after, newest.reverse.foldlM readRow (start before) = some after ∧
          Follows before newest after) ∨
      (¬ ∀ row older, row :: older <:+ newest → Accepts before older row) ∧
        newest.reverse.foldlM readRow (start before) = none := by
  induction newest with
  | nil =>
    refine .inl ⟨fun row older suffix => ?_, _, rfl, rfl, rfl, rfl, rfl, fun key => ?_⟩
    · exact absurd (suffix_nil.mp suffix) (cons_ne_nil _ _)
    · exact (congrFun Option.map_id _).symm
  | cons row older ih =>
    have accepted : (∀ other rest, other :: rest <:+ row :: older → Accepts before rest other) ↔
        Accepts before older row ∧
          ∀ other rest, other :: rest <:+ older → Accepts before rest other := by
      simp only [suffix_cons_iff, List.cons.injEq]
      constructor
      · exact fun all => ⟨all row older (.inl ⟨rfl, rfl⟩), fun other rest h => all _ _ (.inr h)⟩
      · rintro ⟨first, rest⟩ other more (⟨rfl, rfl⟩ | suffix)
        · exact first
        · exact rest _ _ suffix
    rw [accepted, reverse_cons, foldlM_append]
    rcases ih with ⟨all, loop, ran, follows⟩ | ⟨refused, ran⟩
    · rw [ran]
      rcases follows.readRow row with ⟨accepts, after, read, next⟩ | ⟨refused, read⟩
      · exact .inl ⟨⟨accepts, all⟩, after, by simpa using read, next⟩
      · exact .inr ⟨fun both => refused both.1, by simpa using read⟩
    · exact .inr ⟨fun both => refused both.2, by rw [ran]; rfl⟩

end IndexLoop

/-- All rows are read, and each table has the indexes of its rows: rows of a table that is not there
change nothing. -/
def HandlesRows (before : Keyspaces) (rows : List IndexRow) : Prop :=
  ∃ after, updateIndexes before rows = some after ∧
    ∀ key, after.getTable key =
      (before.getTable key).map (replaced (rowsOf key (rows.filterMap IndexRow.named)))

/-- Rows are handled on their own exactly when each has what is dereferenced for it, and the rows
since a table was last looked up give what all its rows do. -/
theorem handlesRows_iff (before : Keyspaces) (rows : List IndexRow) :
    HandlesRows before rows ↔
      (∀ row older, row :: older <:+ (rows.filterMap IndexRow.named).reverse →
        Accepts before older row) ∧
      ∀ key indexes, before.getTable key = some indexes →
        replaced (lastStretch key (rows.filterMap IndexRow.named).reverse).reverse indexes =
          replaced (rowsOf key (rows.filterMap IndexRow.named)) indexes := by
  rw [HandlesRows, updateIndexes]
  generalize rows.filterMap IndexRow.named = rows
  obtain ⟨newest, rfl⟩ : ∃ newest : List NamedRow, rows = newest.reverse :=
    ⟨rows.reverse, (reverse_reverse rows).symm⟩
  rw [reverse_reverse]
  rcases IndexLoop.foldlM_readRow before newest with ⟨all, loop, ran, follows⟩ | ⟨refused, ran⟩
  · rw [ran, and_iff_right all]
    simp only [map_some, Option.some.injEq, exists_eq_left', follows.tables]
    refine forall_congr' fun key => ?_
    cases before.getTable key <;> simp
  · rw [ran]
    constructor
    · rintro ⟨after, failed, -⟩
      cases failed
    · exact fun both => absurd both.1 refused

/-- A second row of a table that is not there is added through a null pointer. -/
theorem updateIndexes_unknown_twice :
    ¬ HandlesRows (fun _ => none)
      [⟨some (ascii "ks"), some (ascii "t"), some (ascii "a"), none, some .other⟩,
        ⟨some (ascii "ks"), some (ascii "t"), some (ascii "b"), none, some .other⟩] := by
  rintro ⟨after, done, -⟩
  exact absurd (isSome_of_eq_some done) (by decide +kernel)

end DseDriver.Schema
