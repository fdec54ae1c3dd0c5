import FusedAttention.Launch

/-! Shapes, layouts and the report of a launch as documents. -/
namespace FusedAttention

open Text

def Shape.toJson (s : Shape) : Json :=
  .object (s.named.map fun (name, value) => (name, .nat value))

def Layout.toJson (l : Layout) : Json :=
  .object [("offset", .nat l.offset), ("batch_stride", .nat l.batchStride),
    ("row_stride", .nat l.rowStride), ("head_stride", .nat l.headStride)]

def LseLayout.toJson (l : LseLayout) : Json :=
  .object [("batch_stride", .nat l.batchStride), ("head_stride", .nat l.headStride)]

def Plan.toJson (p : Plan) : Json :=
  .object [
    ("block_i", .nat p.tiles.blockI),
    ("block_j", .nat p.tiles.blockJ),
    ("max_head_dim", .nat p.tiles.maxHeadDim),
    ("is_half", .bool p.isHalf),
    ("output_in_registers", .bool p.outputInRegisters),
    ("grad_q", .string p.gradQ.name),
    ("grad_k", .string p.gradK.name),
    ("grad_v", .string p.gradV.name)]

def WorkspaceLayout.toJson (w : WorkspaceLayout) : Json :=
  .object [
    ("block_i", .nat w.blockI),
    ("block_j", .nat w.blockJ),
    ("grad_k", .nat w.gradK),
    ("grad_v", .nat w.gradV),
    ("grad_q", .nat w.gradQ),
    ("unit_stride", .nat w.unitStride),
    ("units", .nat w.units)]

def Report.toJson (r : Report) : Json :=
  .object [
    ("plan", r.plan.toJson),
    ("workspace", r.workspace.toJson),
    ("workspace_bytes", .nat r.workspace.sizeInBytes),
    ("scratch_bytes", .nat r.scratchBytes),
    ("units", .nat r.units),
    ("groups", .nat r.groups)]

end FusedAttention
