import TkmChain.SlotsSound
import TkmChain.AnchorSound
import TkmChain.RewardPathsSound
import TkmChain.SelectionSound
import TkmChain.NoteTreeSound
import TkmChain.LegacyTreeSound
import TkmChain.BindingSound
import TkmChain.AdmissionSound
import TkmChain.WavesSound
import TkmChain.TokenSound
import TkmChain.KingAgreementSound
import TkmChain.KingManagerSound
import TkmChain.PoolExclusiveSound
import TkmChain.ProjectionSound
import TkmChain.ReplaySound
import TkmChain.DescriptorSound
import TkmChain.TransactionBucketSound
import TkmChain.DepositSound
import TkmChain.PreparationSound
import TkmChain.WalletUseSound
