set_option autoImplicit false

namespace FilterPlan

def maxWord32 : Nat := 0xFFFFFFFF

def maxWord64 : Nat := 0xFFFFFFFFFFFFFFFF

end FilterPlan
