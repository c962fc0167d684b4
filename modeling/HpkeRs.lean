import HpkeRs.Types
import HpkeRs.Crypto
import HpkeRs.Context
import HpkeRs.KeySchedule
import HpkeRs.Setup
import HpkeRs.PrivateKey
import HpkeRs.Libcrux
import HpkeRs.LibcruxKem
import HpkeRs.Sequence
import HpkeRs.Channel
import HpkeRs.ChannelTrace
import HpkeRs.LibcruxPrng
import HpkeRs.TestUtil
import HpkeRs.Network
