import EchoDesk.Agents.State
import EchoDesk.Core.Python

/-! # The snapshot of a task

`app/agents/events.py`: a task row keeps a snapshot for the client, and every event is folded into
it. A snapshot is a dictionary that only these functions write, so its `steps` are dictionaries and
its `text_buffer` is a text.
-/

namespace Agents

open EchoDesk

/-- `a or b`. -/
def orElse (a b : Json) : Json := if a.truthy then a else b

def defaultSnapshot (title : Option String) (status : String) : Dict :=
  [("status", .str status), ("title", .str ((truthy title).getD "EchoDesk 正在执行")),
    ("progress_text", .null), ("final_text", .null), ("text_buffer", .str ""), ("steps", .arr []),
    ("artifacts", .arr []), ("duration_ms", .null), ("error", .null), ("actions", .arr []),
    ("permission", .null)]

/-- `FAILURE_PROGRESS_TEXT`. -/
def failureProgressText : String → Option String
  | "task.failed" => some "任务失败"
  | "task.timeout" => some "任务超时"
  | "task.cancelled" => some "任务已取消"
  | "task.cancel_failed" => some "取消失败"
  | _ => none

/-- `snapshot.get("steps", [])`. -/
def stepsOf (snapshot : Dict) : List Dict :=
  match snapshot.read "steps" with
  | .arr steps => steps.map fun step => match step with | .obj fields => fields | _ => []
  | _ => []

def putSteps (snapshot : Dict) (steps : List Dict) (step : Dict) : Dict :=
  (snapshot.set "steps" (.arr (steps.map .obj))).set "progress_text"
    (orElse (step.read "label") (snapshot.read "progress_text"))

/-- `_start_step`. -/
def startStep (snapshot step : Dict) : Dict :=
  putSteps snapshot
    (((stepsOf snapshot).filter fun s => s.read "id" ≠ step.read "id") ++ [step]) step

/-- `_finish_step`. -/
def finishStep (snapshot step : Dict) : Dict :=
  let steps := stepsOf snapshot
  let merged := steps.map fun s => if s.read "id" = step.read "id" then s.merge step else s
  putSteps snapshot
    (if steps.any fun s => s.read "id" = step.read "id" then merged else merged ++ [step]) step

/-- `_complete_snapshot`. -/
def completeSnapshot (snapshot : Dict) (event : EchoTaskEvent) : Dict :=
  let text := orElse (orElse (.ofText event.message) (snapshot.read "final_text"))
    (snapshot.read "text_buffer")
  let completed := ((((snapshot.set "status" (.str "succeeded")).set "final_text" text).set
    "progress_text" (.str "任务完成")).set "actions" (.arr [])).set "permission" .null
  if event.artifacts = [] then completed
  else completed.set "artifacts" (.arr (event.artifacts.map .obj))

/-- `_fail_snapshot`; `text` is the failure text of the event. -/
def failSnapshot (snapshot : Dict) (event : EchoTaskEvent) (text : String) : Dict :=
  ((snapshot.set "progress_text" (orElse (.ofText event.message) (.str text))).set "error"
    (orElse (.ofText event.message) (snapshot.read "error"))).set "actions" (.arr [])

/-- What the kind of an event does to the snapshot. -/
def applyEvent (snapshot : Dict) (event : EchoTaskEvent) : Dict :=
  let message := fun text => orElse (.ofText event.message) (.str text)
  match event.event with
  | "task.permission_required" =>
    ((snapshot.set "progress_text" (message "等待授权")).set "actions"
      (.arr (event.actions.map .obj))).set "permission" (optionalDict event.permission)
  | "task.queued" =>
    ((snapshot.set "progress_text" (message "任务已提交，等待执行")).set "actions" (.arr [])).set
      "permission" .null
  | "task.started" => snapshot.set "progress_text" (message "任务开始执行")
  | "task.text_delta" =>
    match truthy event.textDelta, orElse (snapshot.read "text_buffer") (.str "") with
    | some delta, .str buffer =>
      (snapshot.set "text_buffer" (.str (buffer ++ delta))).set "progress_text" (.str "正在整理结果")
    | _, _ => snapshot
  | "task.message" =>
    match truthy event.message with
    | some text =>
      (snapshot.set "final_text" (.str text)).set "progress_text" (.str (slice 120 text))
    | none => snapshot
  | "task.step_started" =>
    match event.step with
    | some (field :: fields) => startStep snapshot (field :: fields)
    | _ => snapshot
  | "task.step_finished" =>
    match event.step with
    | some (field :: fields) => finishStep snapshot (field :: fields)
    | _ => snapshot
  | "task.artifact_updated" =>
    (snapshot.set "artifacts" (.arr (event.artifacts.map .obj))).set "progress_text"
      (message "产物已更新")
  | "task.completed" => completeSnapshot snapshot event
  | kind =>
    match failureProgressText kind with
    | some text => failSnapshot snapshot event text
    | none => snapshot

/-- `reduce_snapshot`. -/
def reduceSnapshot (previous : Dict) (event : EchoTaskEvent) : Dict :=
  let start := if previous = [] then defaultSnapshot event.title event.state else previous
  let status := start.set "status"
    (orElse (orElse (.str event.state) (start.read "status")) (.str "running"))
  let titled := match truthy event.title with
    | some title => status.set "title" (.str title)
    | none => status
  let applied := applyEvent titled event
  let failed := match truthy event.message with
    | some message =>
      if event.event ∈ ["task.failed", "task.timeout"] then applied.set "error" (.str message)
      else applied
    | none => applied
  if (event.snapshot.read "duration_ms") = .null then failed
  else failed.set "duration_ms" (event.snapshot.read "duration_ms")

/-- A column of text that is written from a snapshot entry. -/
def textColumn (value : Json) : Option String :=
  match value with
  | .str s => some s
  | _ => none

/-- `snapshot.get("artifacts") or []`. -/
def artifactsColumn (snapshot : Dict) : List Dict :=
  match snapshot.read "artifacts" with
  | .arr items => items.map fun item => match item with | .obj fields => fields | _ => []
  | _ => []

end Agents
