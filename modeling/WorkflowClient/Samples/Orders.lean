import WorkflowClient.Payload.Dump

/-! The classes of an application that ships orders. -/
namespace WorkflowClient.Samples.Orders
open Number

def str : TypeExpr := .primitive .str

def int : TypeExpr := .primitive .int

def optional (T : TypeExpr) : TypeExpr := .union .vocabulary [T, .noneType]

def nothing : Option Value := some .none

def cancelReason : List FieldDef :=
  [{ name := "code", type := str },
    { name := "detail", type := optional str, default := nothing }]

def orderLine : List FieldDef :=
  [{ name := "sku", type := str }, { name := "quantity", type := int }]

def noItems : Option Value := some (.sequence .list [])

def orderStatus : List (String × Value) :=
  [("NEW", .str "NEW"), ("PAID", .str "PAID"), ("SHIPPED", .str "SHIPPED")]

def leapDay : Value :=
  match Calendar.Date.of? 2024 2 29 with
  | some d => .date d
  | none => .none

def half : Double := Double.ofRatio false 1 2

def classes : Classes where
  classes :=
    [{ name := "CancelReason", body := .model cancelReason .ignored },
      { name := "UrgentCancel", bases := ["CancelReason"],
        body := .model
          (cancelReason ++ [{ name := "level", type := int, default := some (.int 1) }])
          .ignored },
      { name := "OrderStatus", body := .enumeration .text orderStatus },
      { name := "Priority",
        body := .enumeration .integer [("LOW", .int 1), ("HIGH", .int 2)] },
      { name := "Color",
        body := .enumeration .plain
          [("RED", .str "red"), ("GREEN", .int 2),
            ("BLUE", .sequence .tuple [.int 1, .int 2]), ("DAY", leapDay)] },
      { name := "OrderLine", body := .data orderLine },
      { name := "GiftLine", bases := ["OrderLine"],
        body := .data
          (orderLine ++ [{ name := "note", type := str, default := some (.str "") }]) },
      { name := "OrderInput",
        body := .data
          [{ name := "customer", type := str },
            { name := "lines", type := .list .native (.named "OrderLine"),
              default := noItems }] },
      { name := "Invoice",
        body := .data
          [{ name := "number", type := int },
            { name := "issued", type := .primitive .instant },
            { name := "reason", type := optional (.named "CancelReason"), default := nothing },
            { name := "paid", type := .primitive .bool, default := some (.bool false) },
            { name := "rate", type := .primitive .float, default := some (.float half) }] },
      { name := "Shipment",
        body := .model
          [{ name := "id", type := int },
            { name := "weight", type := .primitive .float,
              default := some (.float (Double.ofRatio false 3 2)) },
            { name := "tags", type := .list .native str, default := noItems },
            { name := "due", type := optional (.primitive .instant), default := nothing },
            { name := "price", type := optional (.primitive .decimal), default := nothing },
            { name := "status", type := .named "OrderStatus",
              default := some (.member .text "OrderStatus" "NEW" (.str "NEW")) },
            { name := "line", type := optional (.named "OrderLine"), default := nothing }]
          .ignored },
      { name := "Node",
        body := .model
          [{ name := "value", type := int },
            { name := "children", type := .list .vocabulary (.named "Node"),
              default := noItems }]
          .ignored },
      { name := "Holder",
        body := .model [{ name := "payload", type := .any, default := nothing }] .ignored },
      { name := "Aliased",
        body := .model
          [{ name := "order_id", type := int, inputName := some "orderId" },
            { name := "flag", type := optional (.primitive .bool), default := nothing }]
          .forbidden },
      { name := "Blob", body := .model [{ name := "data", type := .primitive .bytes }] .ignored },
      { name := "Point",
        body := .namedTuple [{ name := "x", type := int }, { name := "y", type := int }] },
      { name := "Opaque", body := .plain }]
  frozen :=
    ["HistoryEventIdReset", "BadBinaryReset", "DecisionCompletedTimeReset",
      "LastDecisionCompletedReset"]

/-- No class has code of its own: models dump themselves by the types of their fields. -/
def catalog : Catalog where
  toClasses := classes
  serialize cls fields := Payload.dump classes (.record .model cls fields)

end WorkflowClient.Samples.Orders
