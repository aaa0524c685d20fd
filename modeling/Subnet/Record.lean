import Subnet.Family

/-!
# Records — everything there is to say about an address and its network
-/

namespace Subnet

/-- The answer to a query.  The expanded texts belong to IPv6, the broadcast
    address to IPv4, and the hostname is there when it was asked for. -/
structure Record where
  family : Family
  address : String
  expandedAddress : Option String
  netmask : String
  prefixLength : Nat
  network : String
  expandedNetwork : Option String
  broadcast : Option String
  hostMin : String
  hostMax : String
  hostCount : String
  addressSpace : String
  hostname : Option String
  deriving DecidableEq

/-- The fields that can be asked for one by one. -/
inductive Field where
  | netmask
  | prefixLength
  | broadcast
  | network
  | hostMin
  | hostMax
  | addressSpace
  | hostname
  deriving DecidableEq

end Subnet
