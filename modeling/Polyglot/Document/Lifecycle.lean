import Polyglot.Document.Basic

/-!
What happens to documents between rebuilds: they are emptied, they age and expire, they are torn
down, and they tell when their buffer has changed. Whenever a document works on a child, the
child's events go to its own outbox.
-/
namespace Polyglot.Document

/-- The events of documents, in order. -/
def outboxes (ds : List Document) : List Event := ds.flatMap outbox

/-- The lowest numbers last, where they are taken from first. -/
def sortParked (ds : List Document) : List Document :=
  ds.mergeSort fun a b => b.id.number ≤ a.id.number

mutual

/-- Empties a document and all below it. Standalone children are parked, the others are idle until
code arrives for them. -/
def clear : Document → Document
  | node info children parked =>
    let cleared := clearAll children
    let (alone, kept) := (cleared.map drained).partition (·.id.kind.standalone)
    node
      { info with
        blocks := []
        idle := kept.map key
        outbox := info.outbox ++ outboxes cleared }
      kept (sortParked (parked ++ alone))

def clearAll : List Document → List Document
  | [] => []
  | d :: rest => d.clear :: clearAll rest

end

mutual

/-- Tears a document and all that it owns down. All but a root tell that they are closed. -/
def dispose : Document → Document
  | node info children parked =>
    if info.disposed then node info children parked
    else
      let owned := disposeAll children ++ disposeAll parked
      node
        { info with
          disposed := true
          blocks := []
          idle := []
          outbox := info.outbox ++ outboxes owned ++
            (if info.id.isRoot then [] else [info.id.event .closed]) }
        [] []

def disposeAll : List Document → List Document
  | [] => []
  | d :: rest => d.dispose :: disposeAll rest

end

/-- Whether the next rebuild without code ends a document's life. -/
def isExpiring (d : Document) : Bool := d.info.lifetime ≤ 1

def aged (d : Document) : Document := d.withLifetime (d.info.lifetime - 1)

mutual

/-- Lets idle and parked children age, disposes of those whose lifetime ran out, and does the same
below the children that stay. -/
def closeExpired : Document → Document
  | node info children parked =>
    let expired := (children.filter fun c => info.idle.contains c.key && c.isExpiring).map dispose
    let staying := closeStaying info.idle children
    let gone := (parked.filter isExpiring).map dispose
    node
      { info with
        idle := []
        outbox := info.outbox ++ outboxes expired ++ outboxes gone ++ outboxes staying }
      (staying.map drained) ((parked.filter (!isExpiring ·)).map aged)

/-- The children that stay, aged if they are idle. -/
def closeStaying (idle : List String) : List Document → List Document
  | [] => []
  | c :: rest =>
    if idle.contains c.key then
      if c.isExpiring then closeStaying idle rest
      else c.closeExpired.aged :: closeStaying idle rest
    else c.closeExpired :: closeStaying idle rest

end

/-- Notes the buffer, and an event if it differs from the one noted before. -/
def noteChange (info : Info) : Info :=
  let value := bufferText info.config.spacing info.blocks
  if info.lastValue = some value then info
  else { info with lastValue := some value, outbox := info.outbox ++ [info.id.event .changed] }

mutual

/-- Tells which buffers have changed since this was last asked. -/
def emitChanged : Document → Document
  | node info children parked =>
    let told := emitChangedAll children
    let info := noteChange info
    node { info with outbox := info.outbox ++ outboxes told } (told.map drained) parked

def emitChangedAll : List Document → List Document
  | [] => []
  | d :: rest => d.emitChanged :: emitChangedAll rest

end

end Polyglot.Document
