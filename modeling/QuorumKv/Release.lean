/-! The release that servers name when asked. -/
namespace QuorumKv

def release : String := "0.3.0"

end QuorumKv
