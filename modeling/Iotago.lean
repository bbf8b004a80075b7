import Iotago.Basic
import Iotago.Types
import Iotago.Serializer
import Iotago.Essence
import Iotago.Transaction
import Iotago.Json
import Iotago.OutputsSet
import Iotago.Semantic.WorkingSet
import Iotago.Semantic.Unlock
import Iotago.Semantic.Validate
import Iotago.Semantic.Pipeline
import Iotago.Semantic.Authorization
import Iotago.Semantic.NativeTokens
import Iotago.Semantic.NoPanic
import Iotago.Reencode
import Iotago.RoundTrip
import Iotago.Semantic.Deposit
import Iotago.Semantic.OrderFree
import Iotago.Semantic.Noninterference
import Iotago.Semantic.UnlockRules
import Iotago.Semantic.Checks
import Iotago.WellFormed
