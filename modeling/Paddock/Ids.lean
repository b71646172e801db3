import Paddock.Json.Decode
import Paddock.Table

/-!
Numbers of parts and cars. Each counts up from one.
-/
namespace Paddock

structure PartId where
  number : UInt64
deriving DecidableEq, Repr

structure CarId where
  number : UInt64
deriving DecidableEq, Repr

namespace PartId

instance : Key PartId where
  rank id := id.number.toNat
  rank_inj {a b} h := by cases a; cases b; simpa [UInt64.toNat_inj] using h

instance : ToString PartId := ⟨fun id => s!"part#{id.number.toNat}"⟩

instance : Json.Encode PartId := ⟨fun id => Json.encode id.number⟩

instance : Json.Decode PartId := ⟨fun j => (Json.decode? j).map PartId.mk⟩

end PartId

namespace CarId

instance : Key CarId where
  rank id := id.number.toNat
  rank_inj {a b} h := by cases a; cases b; simpa [UInt64.toNat_inj] using h

instance : ToString CarId := ⟨fun id => s!"car#{id.number.toNat}"⟩

instance : Json.Encode CarId := ⟨fun id => Json.encode id.number⟩

instance : Json.Decode CarId := ⟨fun j => (Json.decode? j).map CarId.mk⟩

end CarId

end Paddock
