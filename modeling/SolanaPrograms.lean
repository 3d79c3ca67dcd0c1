import SolanaPrograms.Token.Codec
import SolanaPrograms.Token.Conservation
import SolanaPrograms.Token.Multisig
import SolanaPrograms.Token.Numerals
import SolanaPrograms.Token2022.ConfidentialTransfer
import SolanaPrograms.Token2022.FeeCoverage
import SolanaPrograms.Token2022.Instruction
import SolanaPrograms.Token2022.TransferFee
import SolanaPrograms.BinaryOptions.Backing
import SolanaPrograms.Governance.Custody
import SolanaPrograms.Governance.FinalCount
import SolanaPrograms.StakePools.Fees
import SolanaPrograms.StakePools.Supply
import SolanaPrograms.StakePools.Value
import SolanaPrograms.NameService.Authority
import SolanaPrograms.OraclePair.Backing
import SolanaPrograms.Farms.Registry
import SolanaPrograms.Lending.Health
import SolanaPrograms.Lending.Liquidation
import SolanaPrograms.Lending.QuoteCurrency
import SolanaPrograms.Lending.SharePrice
import SolanaPrograms.Math.SquareRoot
import SolanaPrograms.TokenSwap.ConstantProduct
