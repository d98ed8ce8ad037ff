import CandleScript.Proofs.Indicator.Positions
import CandleScript.Run.Operation

namespace CandleScript

namespace Value

end Value

namespace Operator

end Operator

end CandleScript
