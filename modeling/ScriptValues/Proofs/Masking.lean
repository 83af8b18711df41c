import ScriptValues.Proofs.Blindness
import ScriptValues.Session.Run

/-! What responses say apart from serials. A mask covers the serials of contexts and tokens, debug
texts, descriptors and their comparison, and the serials of the log. Reports on things with other
serials are the same behind it. -/

namespace ScriptValues

def DebugText.blank : DebugText :=
  ⟨"", ""⟩

def TokenReport.mask (r : TokenReport) : TokenReport :=
  { r with serial := 0, debug := "" }

def PayloadReport.mask : PayloadReport → PayloadReport
  | compiler id _ _ equalsItself => compiler id 0 "" equalsItself
  | p => p

/-- A host function shows no serial. -/
def FunctionReport.mask (r : FunctionReport) : FunctionReport :=
  if r.isHost then r
  else { r with
    context := r.context.map TokenReport.mask
    debug := ""
    descriptor := ""
    payload := r.payload.mask }

def FunctionComparison.mask (c : FunctionComparison) : FunctionComparison :=
  { c with descriptorEq := false }

def Answer.mask : Answer → Answer
  | context _ => context 0
  | contextTexts _ _ => contextTexts 0 .blank
  | token report => token (report.map TokenReport.mask)
  | function report => function (report.map FunctionReport.mask)
  | functionTexts _ _ => functionTexts .blank .blank
  | functionsCompared comparison => functionsCompared comparison.mask
  | valueTexts _ => valueTexts .blank
  | answer => answer

def LogEntry.mask : LogEntry → LogEntry
  | minted _ => minted 0
  | dropped _ => dropped 0
  | registered signature => registered signature

def Fault.renumber (first : UInt64) : Fault → Fault
  | unknown kind name => unknown kind name
  | notAList v => notAList (v.renumber first)

/-- A fault shows no serial, but it carries the value that it is about. -/
def Response.mask (r : Response) : Response :=
  ⟨(r.answer.map Answer.mask).mapError (Fault.renumber 0), r.log.map LogEntry.mask⟩

variable (first : UInt64)

theorem Value.report_renumber (v : Value) : (v.renumber first).report = v.report := by
  simp only [report, typeName_renumber, display_renumber, hashCode_renumber]

theorem Parts.report_renumber (p : Parts) : (p.renumber first).report = p.report := by
  simp only [report, renumber, Option.isSome_map]

theorem Function.mask_compare_renumber (f g : Function) :
    ((f.renumber first).compare (g.renumber first)).mask = (f.compare g).mask := by
  simp only [compare, FunctionComparison.mask, bne, renumber_beq_renumber, hashCode_renumber,
    feed_renumber, sameCallback?_renumber]

theorem World.mask_reportFunction_renumber (w : World) (f : Function) :
    ((w.renumber first).reportFunction (f.renumber first)).mask = (w.reportFunction f).mask := by
  cases f <;> rfl

theorem Event.mask_entry_renumber (e : Event) : (e.renumber first).entry.mask = e.entry.mask := by
  cases e <;> rfl

theorem Value.renumber_renumber (second : UInt64) (v : Value) :
    (v.renumber first).renumber second = v.renumber second := by
  induction v with
  | list vs ih =>
    simp only [renumber_list, List.map_map]
    exact congrArg Value.list (List.map_congr_left ih)
  | function f => cases f <;> rfl
  | _ => rfl

theorem Fault.renumber_renumber (second : UInt64) (fault : Fault) :
    (fault.renumber first).renumber second = fault.renumber second := by
  cases fault with
  | unknown kind name => rfl
  | notAList v => exact congrArg notAList (v.renumber_renumber first second)

end ScriptValues
