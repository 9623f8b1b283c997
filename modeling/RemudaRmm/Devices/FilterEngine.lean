import RemudaRmm.Foundation.SqlCondition

/-! The device filter (`filterEngine.ts`): the SQL of a condition, of a group and of the query for the devices of one
organisation. A text is given by its lexemes, a bound value by one; keywords are the same in either case. What a table
object has under a name and how values become strings are parameters. -/
namespace RemudaRmm.Devices
open Foundation

inductive FilterOperator where
  | equals | notEquals | greaterThan | greaterThanOrEquals | lessThan | lessThanOrEquals
  | contains | notContains | startsWith | endsWith | matches
  | inList | notIn | hasAny | hasAll | isEmpty | isNotEmpty
  | isNull | isNotNull
  | before | after | between | withinLast | notWithinLast
  deriving DecidableEq

def FilterOperator.name : FilterOperator → String
  | .equals => "equals"
  | .notEquals => "notEquals"
  | .greaterThan => "greaterThan"
  | .greaterThanOrEquals => "greaterThanOrEquals"
  | .lessThan => "lessThan"
  | .lessThanOrEquals => "lessThanOrEquals"
  | .contains => "contains"
  | .notContains => "notContains"
  | .startsWith => "startsWith"
  | .endsWith => "endsWith"
  | .matches => "matches"
  | .inList => "in"
  | .notIn => "notIn"
  | .hasAny => "hasAny"
  | .hasAll => "hasAll"
  | .isEmpty => "isEmpty"
  | .isNotEmpty => "isNotEmpty"
  | .isNull => "isNull"
  | .isNotNull => "isNotNull"
  | .before => "before"
  | .after => "after"
  | .between => "between"
  | .withinLast => "withinLast"
  | .notWithinLast => "notWithinLast"

inductive Number where
  | finite (q : ℚ)
  | infinite (negative : Bool)
  | nan
  deriving DecidableEq

inductive FilterValue where
  | string (t : Text)
  | number (n : Number)
  | boolean (b : Bool)
  | date (time : ℤ)
  | strings (items : List Text)
  | numbers (items : List Number)
  | range (lower upper : ℤ)
  | span (amount : Number) (unit : String)
  deriving DecidableEq

def FilterValue.items : FilterValue → Option (List FilterValue)
  | .strings items => some (items.map .string)
  | .numbers items => some (items.map .number)
  | _ => none

structure FilterCondition where
  field : Text
  operator : FilterOperator
  value : FilterValue

inductive GroupOperator where
  | and
  | or

inductive Filter where
  | condition (c : FilterCondition)
  | group (operator : GroupOperator) (conditions : List Filter)

inductive Table where
  | devices | hardware | network | metrics | software | groups

/-- A word or an operator of a template, a quoted name, or a bound value. -/
inductive Word where
  | text (s : String)
  | table (name : String)
  | column (table name : String)
  | param (v : FilterValue)
  deriving DecidableEq

abbrev SQL := List (Lexeme Word)

def word (s : String) : Lexeme Word := .operand (.text s)

def bound (v : FilterValue) : Lexeme Word := .operand (.param v)

def columnRef (table name : String) : Lexeme Word := .operand (.column table name)

def deviceId : Lexeme Word := columnRef "devices" "id"

def listSQL (items : List FilterValue) : SQL := .left :: [word ","].intercalate (items.map fun v => [bound v]) ++ [.right]

/-- A value in a template: an array becomes a list in brackets. -/
def valueSQL (v : FilterValue) : SQL :=
  match v.items with
  | some items => listSQL items
  | none => [bound v]

def existsSQL (inner : SQL) : SQL := word "EXISTS" :: .left :: inner ++ [.right]

def notSQL (inner : SQL) : SQL := .not :: .left :: inner ++ [.right]

def escapeLikePattern (value : Text) : Text := value.flatMap fun c => if c ∈ ['\\', '%', '_'] then ['\\', c] else [c]

def matchesCustomFieldKey (t : Text) : Bool :=
  match t with
  | [] => false
  | c :: rest => c.isLower && rest.all fun d => d.isLower || d.isDigit || d == '_'

def getCustomFieldKey (field : Text) : Option Text :=
  if startsWith "custom." field && matchesCustomFieldKey (field.drop 7) then some (field.drop 7) else none

structure FieldInfo where
  table : Table
  column : Text
  computed : Option SQL

def epochDays (column : String) : SQL :=
  [word "EXTRACT", .left, word "EPOCH", word "FROM", .left, word "NOW", .left, .right, word "-",
    columnRef "devices" column, .right, .right, word "/", word "86400"]

def getColumnForField (field : Text) : Except String FieldInfo :=
  if startsWith "hardware." field then .ok ⟨.hardware, field.drop 9, none⟩
  else if startsWith "network." field then .ok ⟨.network, field.drop 8, none⟩
  else if startsWith "metrics." field then .ok ⟨.metrics, field.drop 8, none⟩
  else if startsWith "software." field then .ok ⟨.software, field.drop 9, none⟩
  else if startsWith "custom." field then
    match getCustomFieldKey field with
    | none => .error ("Invalid custom field key: " ++ String.ofList field)
    | some key =>
      .ok ⟨.devices, "customFields".toList, some [word "jsonb_extract_path_text", .left,
        columnRef "devices" "custom_fields", word ",", bound (.string key), .right]⟩
  else if field = "daysSinceLastSeen".toList then
    .ok ⟨.devices, "lastSeenAt".toList, some (epochDays "last_seen_at")⟩
  else if field = "daysSinceEnrolled".toList then
    .ok ⟨.devices, "enrolledAt".toList, some (epochDays "enrolled_at")⟩
  else if field = "groupId".toList then .ok ⟨.groups, "groupId".toList, none⟩
  else .ok ⟨.devices, field, none⟩

theorem getColumnForField_software {field : Text} (starts : startsWith "software." field = true) :
    getColumnForField field = .ok ⟨.software, field.drop 9, none⟩ := by
  obtain ⟨rest, rfl⟩ := List.isPrefixOf_iff_prefix.mp starts
  rfl

theorem getColumnForField_custom {field key : Text} (starts : startsWith "custom." field = true)
    (found : getCustomFieldKey field = some key) :
    getColumnForField field = .ok ⟨.devices, "customFields".toList, some [word "jsonb_extract_path_text", .left,
      columnRef "devices" "custom_fields", word ",", bound (.string key), .right]⟩ := by
  obtain ⟨rest, rfl⟩ := List.isPrefixOf_iff_prefix.mp starts
  have hardware : startsWith "hardware." ("custom.".toList ++ rest) = false := rfl
  have network : startsWith "network." ("custom.".toList ++ rest) = false := rfl
  have metrics : startsWith "metrics." ("custom.".toList ++ rest) = false := rfl
  have software : startsWith "software." ("custom.".toList ++ rest) = false := rfl
  simp only [getColumnForField, hardware, network, metrics, software, starts, found, Bool.false_eq_true, if_false,
    if_true]

section Build
variable (columnOf : Table → Text → Option Word) (stringOf : FilterValue → Text)

def likePattern (front back : Text) (v : FilterValue) : Lexeme Word :=
  bound (.string (front ++ escapeLikePattern (stringOf v) ++ back))

def getIntervalSQL (amount : Number) (unit : String) : Except String SQL :=
  match amount with
  | .finite q =>
    if q ≤ 0 then .error ("Invalid interval amount: " ++ String.ofList (stringOf (.number amount)))
    else if unit = "minutes" then .ok [bound (.number amount), word "*", word "INTERVAL", word "'1 minute'"]
    else if unit = "hours" then .ok [bound (.number amount), word "*", word "INTERVAL", word "'1 hour'"]
    else if unit = "days" then .ok [bound (.number amount), word "*", word "INTERVAL", word "'1 day'"]
    else if unit = "weeks" then .ok [bound (.number amount), word "*", word "INTERVAL", word "'1 week'"]
    else if unit = "months" then .ok [bound (.number amount), word "*", word "INTERVAL", word "'1 month'"]
    else .error ("Invalid time unit: " ++ unit)
  | _ => .error ("Invalid interval amount: " ++ String.ofList (stringOf (.number amount)))

def sinceSQL (column : SQL) (sign : String) (value : FilterValue) (refusal : String) : Except String SQL :=
  match value with
  | .span amount unit =>
    (getIntervalSQL stringOf amount unit).map fun interval =>
      column ++ [word sign, word "NOW", .left, .right, word "-"] ++ interval
  | _ => .error refusal

def applyOperator (column : SQL) (operator : FilterOperator) (value : FilterValue) : Except String SQL :=
  match operator with
  | .equals => .ok (column ++ word "=" :: valueSQL value)
  | .notEquals => .ok (column ++ word "!=" :: valueSQL value)
  | .greaterThan => .ok (column ++ word ">" :: valueSQL value)
  | .greaterThanOrEquals => .ok (column ++ word ">=" :: valueSQL value)
  | .lessThan => .ok (column ++ word "<" :: valueSQL value)
  | .lessThanOrEquals => .ok (column ++ word "<=" :: valueSQL value)
  | .contains => .ok (column ++ [word "ILIKE", likePattern stringOf ['%'] ['%'] value])
  | .notContains => .ok (column ++ [.not, word "ILIKE", likePattern stringOf ['%'] ['%'] value])
  | .startsWith => .ok (column ++ [word "ILIKE", likePattern stringOf [] ['%'] value])
  | .endsWith => .ok (column ++ [word "ILIKE", likePattern stringOf ['%'] [] value])
  | .matches => .ok (column ++ word "~" :: valueSQL value)
  | .inList =>
    match value.items with
    | some [] => .ok [.no]
    | some items => .ok (column ++ word "IN" :: listSQL items)
    | none => .error "Value must be array for \"in\" operator"
  | .notIn =>
    match value.items with
    | some [] => .ok [.yes]
    | some items => .ok (column ++ .not :: word "IN" :: listSQL items)
    | none => .error "Value must be array for \"notIn\" operator"
  | .hasAny =>
    match value.items with
    | some items => .ok (column ++ word "&&" :: listSQL items)
    | none => .error "Value must be array for \"hasAny\" operator"
  | .hasAll =>
    match value.items with
    | some items => .ok (column ++ word "@>" :: listSQL items)
    | none => .error "Value must be array for \"hasAll\" operator"
  | .isEmpty => .ok (column ++ [word "=", word "'\x7b\x7d'", word "::", word "text[]"])
  | .isNotEmpty => .ok (column ++ [word "!=", word "'\x7b\x7d'", word "::", word "text[]"])
  | .isNull => .ok (column ++ [word "IS", word "NULL"])
  | .isNotNull => .ok (column ++ [word "IS", .not, word "NULL"])
  | .before => .ok (column ++ word "<" :: valueSQL value)
  | .after => .ok (column ++ word ">" :: valueSQL value)
  | .between =>
    match value with
    | .range lower upper => .ok (column ++ [.between, bound (.date lower), .and, bound (.date upper)])
    | _ => .error "Value must have from/to for \"between\" operator"
  | .withinLast => sinceSQL stringOf column ">=" value "Value must have amount/unit for \"withinLast\" operator"
  | .notWithinLast => sinceSQL stringOf column "<" value "Value must have amount/unit for \"notWithinLast\" operator"

def virtualSQL (field : Text) : Option SQL :=
  if field = "patches.pending".toList then
    some (existsSQL [.select, word "1", word "FROM", word "device_patches", word "WHERE", word "device_id", word "=",
      deviceId, .and, word "status", word "=", word "'pending'"])
  else if field = "alerts.critical".toList then
    some (existsSQL [.select, word "1", word "FROM", word "alerts", word "WHERE", word "device_id", word "=", deviceId,
      .and, word "status", word "=", word "'active'", .and, word "severity", word "=", word "'critical'"])
  else if field = "system.rebootRequired".toList then
    some [columnRef "devices" "pending_reboot", word "=", .yes]
  else none

def isNegative (value : FilterValue) : Bool :=
  value == .boolean false || value == .string "no".toList || value == .string "false".toList

/-- The rows of a table that belong to the device and meet a predicate. -/
def relatedSQL (table : String) (predicate : SQL) : SQL :=
  existsSQL ([.select, word "1", word "FROM", .operand (.table table), word "WHERE", columnRef table "device_id",
    word "=", deviceId, .and] ++ predicate)

def softwareName : Lexeme Word := columnRef "software_inventory" "name"

/-- The predicate of one installed program, where the operator has one. -/
def softwareMatch (operator : FilterOperator) (value : FilterValue) : Except String SQL :=
  match operator with
  | .contains | .notContains => .ok [softwareName, word "ILIKE", likePattern stringOf ['%'] ['%'] value]
  | .equals => .ok [softwareName, word "=", bound (.string (stringOf value))]
  | .inList | .hasAny =>
    .ok (softwareName :: word "IN" :: listSQL ((value.items.getD []).map fun v => .string (stringOf v)))
  | _ => .error ("Unsupported software operator: " ++ operator.name)

def softwareSQL (field : Text) (operator : FilterOperator) (value : FilterValue) : Except String SQL :=
  let positive := field = "software.installed".toList
  let items := value.items.getD []
  if operator ∈ [.inList, .hasAny, .hasAll] ∧ items = [] then .ok [.yes]
  else if operator = .hasAll then
    let all := [Lexeme.and].intercalate (items.map fun v =>
      relatedSQL "software_inventory" [softwareName, word "=", bound (.string (stringOf v))])
    .ok (if positive then all else notSQL all)
  else
    (softwareMatch stringOf operator value).map fun found =>
      let inner := relatedSQL "software_inventory" found
      if operator = .notContains then notSQL inner else if positive then inner else notSQL inner

def tableName : Table → String
  | .devices => "devices"
  | .hardware => "device_hardware"
  | .network => "device_network"
  | .metrics => "device_metrics"
  | .software => "software_inventory"
  | .groups => "device_group_memberships"

def latestSQL (column : Word) : SQL :=
  .left :: [.select, .operand column, word "FROM", .operand (.table "device_metrics"), word "WHERE",
    columnRef "device_metrics" "device_id", word "=", deviceId, word "ORDER", word "BY",
    columnRef "device_metrics" "timestamp", word "DESC", word "LIMIT", word "1"] ++ [.right]

def unknownField (kind : String) (column : Text) : String := "Unknown " ++ kind ++ " field: " ++ String.ofList column

def groupSQL (operator : FilterOperator) (value : FilterValue) : Except String SQL :=
  let member := columnRef "device_group_memberships" "group_id"
  match operator, value.items with
  | .equals, _ => .ok (relatedSQL "device_group_memberships" (member :: word "=" :: valueSQL value))
  | .inList, some _ =>
    .ok (relatedSQL "device_group_memberships" (member :: word "=" :: word "ANY" :: .left :: valueSQL value ++ [.right]))
  | _, _ => .error ("Unsupported operator for groupId: " ++ operator.name)

def fieldSQL (field : Text) (operator : FilterOperator) (value : FilterValue) : Except String SQL :=
  match getColumnForField field with
  | .error e => .error e
  | .ok info =>
    match info.table, info.computed with
    | .software, _ => softwareSQL stringOf field operator value
    | _, some computed => applyOperator stringOf computed operator value
    | .devices, none =>
      match columnOf .devices info.column with
      | none => .error (unknownField "device" info.column)
      | some column => applyOperator stringOf [.operand column] operator value
    | .hardware, none =>
      match columnOf .hardware info.column with
      | none => .error (unknownField "hardware" info.column)
      | some column =>
        (applyOperator stringOf [.operand column] operator value).map (relatedSQL (tableName .hardware))
    | .network, none =>
      match columnOf .network info.column with
      | none => .error (unknownField "network" info.column)
      | some column =>
        (applyOperator stringOf [.operand column] operator value).map (relatedSQL (tableName .network))
    | .metrics, none =>
      match columnOf .metrics info.column with
      | none => .error (unknownField "metrics" info.column)
      | some column => applyOperator stringOf (latestSQL column) operator value
    | .groups, none => groupSQL operator value

def buildConditionSQL (c : FilterCondition) : Except String SQL :=
  match virtualSQL c.field with
  | some inner => .ok (if (c.operator == .notEquals) != isNegative c.value then notSQL inner else inner)
  | none => fieldSQL columnOf stringOf c.field c.operator c.value

/-- Parts of a disjunction are put in brackets, those of a conjunction are not. -/
def joinGroup (operator : GroupOperator) (parts : List SQL) : SQL :=
  if parts = [] then [.yes]
  else
    match operator with
    | .and => [Lexeme.and].intercalate parts
    | .or => .left :: [Lexeme.or].intercalate parts ++ [.right]

mutual
def buildSQL : Filter → Except String SQL
  | .condition c => buildConditionSQL columnOf stringOf c
  | .group operator conditions => (buildParts conditions).map (joinGroup operator)

def buildParts : List Filter → Except String (List SQL)
  | [] => .ok []
  | f :: rest =>
    match buildSQL f, buildParts rest with
    | .error e, _ => .error e
    | .ok _, .error e => .error e
    | .ok part, .ok parts => .ok (part :: parts)
end

def buildGroupSQL (operator : GroupOperator) (conditions : List Filter) : Except String SQL :=
  buildSQL columnOf stringOf (.group operator conditions)

end Build

structure Device where
  (id orgId siteId : Text)

def siteScopeCondition : Option (List Text) → Option SQL
  | none => none
  | some [] => some [.no]
  | some ids => some (columnRef "devices" "site_id" :: word "IN" :: listSQL (ids.map .string))

def orgCondition (orgId : Text) : SQL := [columnRef "devices" "org_id", word "=", bound (.string orgId)]

/-- The conditions that are there, in brackets when there is more than one. -/
def andSQL (conditions : List (Option SQL)) : SQL :=
  match conditions.filterMap id with
  | [only] => only
  | given => .left :: [Lexeme.and].intercalate given ++ [.right]

def whereSQL (orgId : Text) (allowedSiteIds : Option (List Text)) (filterSQL : SQL) : SQL :=
  andSQL [some (orgCondition orgId), siteScopeCondition allowedSiteIds, some filterSQL]

def boundTexts : SQL → Option (List Text)
  | [.operand (.param (.string t)), .right] => some [t]
  | .operand (.param (.string t)) :: .operand separator :: rest =>
    if separator = .text "," then (boundTexts rest).map (t :: ·) else none
  | _ => none

/-- The value of a predicate for a device: what it says of the organisation and the site is known, the rest is left
open. -/
def rowPredicate (other : Device → SQL → Truth) (device : Device) (t : SQL) : Truth :=
  match t with
  | [.operand column, .operand sign, .operand (.param (.string v))] =>
    if column = .column "devices" "org_id" ∧ sign = .text "=" then .ofProp (device.orgId = v) else other device t
  | .operand column :: .operand sign :: .left :: rest =>
    if column = .column "devices" "site_id" ∧ sign = .text "IN" then
      match boundTexts rest with
      | some ids => .ofProp (device.siteId ∈ ids)
      | none => other device t
    else other device t
  | _ => other device t

/-- The identifiers of the rows that the query selects; `none` when its condition cannot be read. -/
def evaluateFilter (columnOf : Table → Text → Option Word) (stringOf : FilterValue → Text)
    (other : Device → SQL → Truth) (operator : GroupOperator) (conditions : List Filter) (orgId : Text)
    (allowedSiteIds : Option (List Text)) (rows : List Device) : Except String (List Text) :=
  (buildGroupSQL columnOf stringOf operator conditions).map fun filterSQL =>
    (rows.filter fun device =>
      conditionValue (rowPredicate other device) (whereSQL orgId allowedSiteIds filterSQL) = some .yes).map Device.id

end RemudaRmm.Devices
